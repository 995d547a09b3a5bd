import Webtrans.Proto.Qpack.Prefix

namespace Webtrans.Proto.Qpack

open Webtrans.Data

/-! Prefix integers of any length against RFC 7541 section 5.1: what
`decode_prefix` makes of the bits that a 64-bit `usize` has no room for. -/

/-- Through bytes that announce more, as long as their shifts stay in the word. -/
theorem decodePrefixLoop_more {more : List UInt8} (set : ∀ byte ∈ more, 128 ≤ byte.toNat)
    {value power : Nat} (buf : List UInt8) (shifts : power + 7 * more.length ≤ 63)
    (fits : value + continuationSum more * 2 ^ power < 2 ^ 64) :
    decodePrefixLoop value power (more ++ buf) =
      decodePrefixLoop (value + continuationSum more * 2 ^ power) (power + 7 * more.length) buf := by
  induction more generalizing value power with
  | nil => simp [continuationSum]
  | cons byte rest ih =>
      have top := set byte List.mem_cons_self
      have scaled : continuationSum (byte :: rest) * 2 ^ power =
          byte.toNat % 128 * 2 ^ power + continuationSum rest * 2 ^ (power + 7) := by
        rw [continuationSum, Nat.pow_add]
        ring
      rw [scaled] at fits ⊢
      rw [List.length_cons] at shifts ⊢
      have whole : byte.toNat % 128 * 2 ^ power % 2 ^ 64 = byte.toNat % 128 * 2 ^ power :=
        Nat.mod_eq_of_lt (by omega)
      rw [List.cons_append, decodePrefixLoop_cons, if_neg (by omega), whole, if_neg (by omega),
        if_neg (by omega), ih (fun byte member => set byte (List.mem_cons_of_mem _ member)) (by omega)
          (by omega)]
      congr 1 <;> omega

theorem decodePrefixLoop_beyond {value power : Nat} {input : List UInt8} (beyond : 64 ≤ power)
    (nonempty : input ≠ []) : decodePrefixLoop value power input = .error .boundsExceeded := by
  cases input with
  | nil => exact absurd rfl nonempty
  | cons byte buf => rw [decodePrefixLoop_cons, if_pos beyond]

/-- A loop that returns has read a last byte behind bytes that announce more. -/
theorem complete_of_decodePrefixLoop {value power result : Nat} {input rest : List UInt8}
    (decoded : decodePrefixLoop value power input = .ok (result, rest)) :
    ∃ more last, input = more ++ last :: rest ∧ (∀ byte ∈ more, 128 ≤ byte.toNat) ∧
      last.toNat < 128 := by
  induction input generalizing value power with
  | nil => cases decoded
  | cons byte buf ih =>
      rw [decodePrefixLoop_cons] at decoded
      split at decoded
      · cases decoded
      · dsimp only at decoded
        split at decoded
        · cases decoded
        · split at decoded
          case isTrue clear =>
            cases decoded
            exact ⟨[], byte, rfl, by simp, clear⟩
          case isFalse top =>
            obtain ⟨more, last, rfl, set, clear⟩ := ih decoded
            refine ⟨byte :: more, last, rfl, ?_, clear⟩
            simp only [List.mem_cons, forall_eq_or_imp]
            exact ⟨by omega, set⟩

section Complete

variable {base : Nat} (baseFits : base < 256) {more : List UInt8}
  (set : ∀ byte ∈ more, 128 ≤ byte.toNat) {last : UInt8} (clear : last.toNat < 128) (rest : List UInt8)

include baseFits set clear

theorem decodePrefixLoop_short (short : more.length ≤ 8) :
    base + continuationSum (more ++ [last]) < 2 ^ 64 ∧
      decodePrefixLoop base 0 (more ++ last :: rest) =
        .ok (base + continuationSum (more ++ [last]), rest) := by
  have sum := continuationSum_append more [last]
  have moreBound := continuationSum_lt more
  have width : (128 : Nat) ^ more.length ≤ 128 ^ 8 := Nat.pow_le_pow_right (by decide) short
  have lastValue : continuationSum [last] = last.toNat := by
    simp only [continuationSum, Nat.mod_eq_of_lt clear, Nat.mul_zero, Nat.add_zero]
  have scaled : 128 ^ more.length * last.toNat ≤ 128 ^ 8 * 127 := Nat.mul_le_mul width (by omega)
  have power : (2 : Nat) ^ (7 * more.length) = 128 ^ more.length := by rw [Nat.pow_mul]
  rw [lastValue] at sum
  rw [sum]
  refine ⟨by omega, ?_⟩
  rw [decodePrefixLoop_more set _ (by omega) (by omega), decodePrefixLoop_cons, if_neg (by omega),
    Nat.zero_add, power, Nat.mod_eq_of_lt clear, Nat.mul_comm last.toNat, Nat.mod_eq_of_lt (by omega),
    if_neg (by omega), if_pos clear, Nat.pow_zero, Nat.mul_one, Nat.add_assoc]

/-- At the tenth byte only the lowest bit is still inside the word. -/
theorem decodePrefixLoop_tenth (nine : more.length = 9) :
    decodePrefixLoop base 0 (more ++ last :: rest) =
      if 2 ^ 64 ≤ base + continuationSum more + last.toNat % 2 * 2 ^ 63 then .error .boundsExceeded
      else .ok (base + continuationSum more + last.toNat % 2 * 2 ^ 63, rest) := by
  have moreBound := continuationSum_lt more
  have lost : last.toNat * 2 ^ 63 % 2 ^ 64 = last.toNat % 2 * 2 ^ 63 :=
    Nat.mul_mod_mul_right (2 ^ 63) last.toNat 2
  rw [nine] at moreBound
  rw [decodePrefixLoop_more set _ (by omega) (by omega), nine, decodePrefixLoop_cons, if_neg (by decide),
    Nat.mod_eq_of_lt clear, lost, Nat.pow_zero, Nat.mul_one]
  simp only [if_pos clear]

omit clear in
theorem decodePrefixLoop_long (long : 10 ≤ more.length) :
    decodePrefixLoop base 0 (more ++ last :: rest) = .error .boundsExceeded := by
  have front : (more.take 9).length = 9 := by
    rw [List.length_take]
    omega
  have moreBound := continuationSum_lt (more.take 9)
  rw [front] at moreBound
  have left : 0 < (more.drop 9).length := by
    rw [List.length_drop]
    omega
  obtain ⟨tenth, behind, drop⟩ := List.exists_cons_of_length_pos left
  have top : 128 ≤ tenth.toNat := by
    refine set tenth (List.mem_of_mem_drop (i := 9) ?_)
    rw [drop]
    exact List.mem_cons_self
  have frontSet : ∀ byte ∈ more.take 9, 128 ≤ byte.toNat :=
    fun byte member => set byte (List.mem_of_mem_take member)
  rw [← List.take_append_drop 9 more, drop, List.append_assoc, decodePrefixLoop_more frontSet _ (by omega)
    (by omega), front, List.cons_append, decodePrefixLoop_cons, if_neg (by decide)]
  dsimp only
  split
  · rfl
  · rw [if_neg (by omega)]
    exact decodePrefixLoop_beyond (by decide) (by simp)

end Complete

theorem decodePrefix_cons {size : Nat} (positive : 0 < size) (byteful : size ≤ 8) (first : UInt8)
    (buf : List UInt8) :
    decodePrefix size (first :: buf) =
      if first.toNat % 2 ^ size < 2 ^ size - 1 then
        .ok ((UInt8.ofNat (first.toNat >>> size), first.toNat % 2 ^ size), buf)
      else
        (decodePrefixLoop (2 ^ size - 1) 0 buf).map fun (value, buf) =>
          ((UInt8.ofNat (first.toNat >>> size), value), buf) := by
  have mask := decodeMask size (by omega) positive
  have low : (first &&& (0xff : UInt8) >>> UInt8.ofNat (8 - size)).toNat = first.toNat % 2 ^ size := by
    rw [UInt8.toNat_and, mask, Nat.and_two_pow_sub_one_eq_mod]
  simp only [decodePrefix, UInt8.lt_iff_toNat_lt, low, mask]
  split
  · rfl
  · cases decodePrefixLoop (2 ^ size - 1) 0 buf <;> rfl

/-- The decoder never gives a value other than the one its bytes encode, and
answers an integer beyond the word with an error. -/
def DecodesExactly (size : Nat) (input : List UInt8) : Prop :=
  (∀ flags value rest, decodePrefix size input = .ok ((flags, value), rest) →
    ∃ bytes, input = bytes ++ rest ∧ PrefixEncoding size bytes value) ∧
  ∀ bytes value rest, input = bytes ++ rest → PrefixEncoding size bytes value → 2 ^ 64 ≤ value →
    decodePrefix size input = .error .boundsExceeded

/-- The tenth continuation byte ends the encoding with more than its lowest
bit, and the addition of that bit does not overflow. -/
def LosesHighBits (size : Nat) (input : List UInt8) : Prop :=
  ∃ (first last : UInt8) (more rest : List UInt8), input = first :: (more ++ last :: rest) ∧
    first.toNat % 2 ^ size = 2 ^ size - 1 ∧ more.length = 9 ∧ (∀ byte ∈ more, 128 ≤ byte.toNat) ∧
    2 ≤ last.toNat ∧ last.toNat < 128 ∧
    (last.toNat % 2 = 1 → 2 ^ size - 1 + continuationSum more < 2 ^ 63)

theorem mask_lt {size : Nat} (byteful : size ≤ 8) : 2 ^ size - 1 < 256 := by
  have power : (2 : Nat) ^ size ≤ 2 ^ 8 := Nat.pow_le_pow_right (by decide) byteful
  omega

section

variable {size : Nat} (positive : 0 < size) (byteful : size ≤ 8)

include positive byteful

/-- Away from the lost bits a complete encoding gives its integer, which then
fits the word, or an error. -/
theorem decodePrefix_continued {first last : UInt8} {more rest : List UInt8}
    (full : first.toNat % 2 ^ size = 2 ^ size - 1) (set : ∀ byte ∈ more, 128 ≤ byte.toNat)
    (clear : last.toNat < 128) (kept : ¬ LosesHighBits size (first :: (more ++ last :: rest))) :
    (2 ^ size - 1 + continuationSum (more ++ [last]) < 2 ^ 64 ∧
        decodePrefix size (first :: (more ++ last :: rest)) =
          .ok ((UInt8.ofNat (first.toNat >>> size), 2 ^ size - 1 + continuationSum (more ++ [last])), rest)) ∨
      decodePrefix size (first :: (more ++ last :: rest)) = .error .boundsExceeded := by
  have base := mask_lt byteful
  rw [decodePrefix_cons positive byteful, if_neg (by omega)]
  rcases Nat.lt_trichotomy more.length 9 with short | nine | long
  · obtain ⟨fits, decoded⟩ := decodePrefixLoop_short base set clear rest (by omega)
    rw [decoded]
    exact .inl ⟨fits, rfl⟩
  · rw [decodePrefixLoop_tenth base set clear rest nine]
    split
    case isTrue wraps => exact .inr rfl
    case isFalse fits =>
      have small : last.toNat < 2 := by
        by_contra lost
        refine kept ⟨first, last, more, rest, rfl, full, nine, set, by omega, clear, ?_⟩
        intro odd
        rw [odd] at fits
        omega
      have value : continuationSum (more ++ [last]) = continuationSum more + last.toNat % 2 * 2 ^ 63 := by
        rw [continuationSum_append, nine, continuationSum, continuationSum, Nat.mod_eq_of_lt clear,
          Nat.mod_eq_of_lt small]
        omega
      rw [value, ← Nat.add_assoc]
      exact .inl ⟨by omega, rfl⟩
  · rw [decodePrefixLoop_long base set rest (by omega)]
    exact .inr rfl

/-- Where bits are lost an integer that does not fit is accepted. -/
theorem not_decodesExactly_of_loses {input : List UInt8} (lost : LosesHighBits size input) :
    ¬ DecodesExactly size input := by
  intro exact
  have base := mask_lt byteful
  obtain ⟨first, last, more, rest, rfl, full, nine, set, large, clear, odd⟩ := lost
  have moreBound := continuationSum_lt more
  rw [nine] at moreBound
  have beyond : 2 ^ 64 ≤ 2 ^ size - 1 + continuationSum (more ++ [last]) := by
    rw [continuationSum_append, nine, continuationSum, continuationSum, Nat.mod_eq_of_lt clear]
    omega
  have refused := exact.2 (first :: (more ++ [last])) _ rest (by simp) (.continued full set clear) beyond
  have fits : ¬ 2 ^ 64 ≤ 2 ^ size - 1 + continuationSum more + last.toNat % 2 * 2 ^ 63 := by
    rcases Nat.mod_two_eq_zero_or_one last.toNat with zero | one
    · rw [zero]
      omega
    · have bound := odd one
      rw [one]
      omega
  rw [decodePrefix_cons positive byteful, if_neg (by omega),
    decodePrefixLoop_tenth base set clear rest nine, if_neg fits] at refused
  cases refused

theorem encoding_of_decodePrefix {input rest : List UInt8} {flags : UInt8} {value : Nat}
    (kept : ¬ LosesHighBits size input) (decoded : decodePrefix size input = .ok ((flags, value), rest)) :
    ∃ bytes, input = bytes ++ rest ∧ PrefixEncoding size bytes value := by
  cases input with
  | nil => cases decoded
  | cons first buf =>
      have whole := decoded
      rw [decodePrefix_cons positive byteful] at decoded
      split at decoded
      case isTrue small =>
        cases decoded
        exact ⟨[first], rfl, .inPrefix small⟩
      case isFalse large =>
        have room := Nat.mod_lt first.toNat (Nat.two_pow_pos size)
        have full : first.toNat % 2 ^ size = 2 ^ size - 1 := by omega
        cases loop : decodePrefixLoop (2 ^ size - 1) 0 buf with
        | error error =>
            rw [loop] at decoded
            cases decoded
        | ok result =>
            obtain ⟨found, behind⟩ := result
            obtain ⟨more, last, rfl, set, clear⟩ := complete_of_decodePrefixLoop loop
            rcases decodePrefix_continued positive byteful full set clear kept with ⟨_, same⟩ | failed
            · rw [same] at whole
              cases whole
              exact ⟨first :: (more ++ [last]), by simp, .continued full set clear⟩
            · rw [failed] at whole
              cases whole

theorem refused_of_large {bytes rest : List UInt8} {value : Nat} (kept : ¬ LosesHighBits size (bytes ++ rest))
    (encoding : PrefixEncoding size bytes value) (beyond : 2 ^ 64 ≤ value) :
    decodePrefix size (bytes ++ rest) = .error .boundsExceeded := by
  have base := mask_lt byteful
  cases encoding with
  | inPrefix small => omega
  | @continued first last more full set clear =>
      have shape : first :: (more ++ [last]) ++ rest = first :: (more ++ last :: rest) := by simp
      rw [shape] at kept ⊢
      rcases decodePrefix_continued positive byteful full set clear kept with ⟨fits, _⟩ | failed
      · omega
      · exact failed

/-- Prefix integers are decoded to the integer their bytes encode, exactly
when the tenth continuation byte does not lose bits. -/
theorem decodesExactly_iff (input : List UInt8) : DecodesExactly size input ↔ ¬ LosesHighBits size input := by
  constructor
  · intro exact lost
    exact not_decodesExactly_of_loses positive byteful lost exact
  · intro kept
    constructor
    · intro flags value rest decoded
      exact encoding_of_decodePrefix positive byteful kept decoded
    · intro bytes value rest split encoding beyond
      subst split
      exact refused_of_large positive byteful kept encoding beyond

end

/-- A prefix full of ones, nine bytes without payload and a tenth of two. -/
def overlong : List UInt8 := 0xff :: (List.replicate 9 0x80 ++ [0x02])

theorem decodesExactly_iff_overlong : DecodesExactly 7 overlong ↔ ¬ LosesHighBits 7 overlong :=
  decodesExactly_iff (by decide) (by decide) overlong

/-- The encoding of 127 + 2 ^ 64 is read as 127. -/
theorem overlong_decoded :
    PrefixEncoding 7 overlong (127 + 2 ^ 64) ∧ decodePrefix 7 overlong = .ok ((1, 127), []) ∧
      ¬ DecodesExactly 7 overlong := by
  have set : ∀ byte ∈ List.replicate 9 (0x80 : UInt8), 128 ≤ byte.toNat := by
    intro byte member
    rw [List.eq_of_mem_replicate member]
    decide
  have encoding : PrefixEncoding 7 overlong (127 + 2 ^ 64) :=
    @PrefixEncoding.continued 7 0xff 0x02 (List.replicate 9 0x80) rfl set (by decide)
  have decoded : decodePrefix 7 overlong = .ok ((1, 127), []) := by decide +kernel
  refine ⟨encoding, decoded, ?_⟩
  intro exact
  have refused := exact.2 overlong _ [] (by simp) encoding (by decide)
  rw [decoded] at refused
  cases refused

end Webtrans.Proto.Qpack
