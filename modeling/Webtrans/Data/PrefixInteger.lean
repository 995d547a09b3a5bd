import Mathlib.Tactic.Ring

namespace Webtrans.Data

/-! Integers behind a prefix of flags (RFC 7541 section 5.1). -/

/-- Seven bits a byte, the lowest first. -/
def continuation (value : Nat) : List UInt8 :=
  if value < 128 then [UInt8.ofNat value]
  else UInt8.ofNat (value % 128 + 128) :: continuation (value / 128)

/-- An integer in the low `size` bits of a byte whose other bits are `high`. -/
def prefixInteger (size high value : Nat) : List UInt8 :=
  if value < 2 ^ size - 1 then [UInt8.ofNat (high + value)]
  else UInt8.ofNat (high + (2 ^ size - 1)) :: continuation (value - (2 ^ size - 1))

theorem prefixInteger_first (size high value : Nat) :
    ∃ low tail, low < 2 ^ size ∧ prefixInteger size high value = UInt8.ofNat (high + low) :: tail := by
  have one : 1 ≤ 2 ^ size := Nat.two_pow_pos size
  rw [prefixInteger]
  split
  case isTrue small => exact ⟨value, [], by omega, rfl⟩
  case isFalse => exact ⟨2 ^ size - 1, _, by omega, rfl⟩

theorem continuation_small {value : Nat} (small : value < 128) :
    continuation value = [UInt8.ofNat value] := by
  rw [continuation, if_pos small]

theorem continuation_more {value : Nat} (more : 128 ≤ value) :
    continuation value = UInt8.ofNat (value % 128 + 128) :: continuation (value / 128) := by
  rw [continuation, if_neg (by omega)]

theorem last_byte : ∀ low < 128, (UInt8.ofNat low &&& 127).toNat = low ∧ UInt8.ofNat low &&& 128 = 0 := by
  decide +kernel

theorem more_byte : ∀ low < 128,
    (UInt8.ofNat (low + 128) &&& 127).toNat = low ∧ UInt8.ofNat (low + 128) &&& 128 ≠ 0 := by
  decide +kernel

/-- Each byte's low seven bits times 128 to the power of its position. -/
def continuationSum : List UInt8 → Nat
  | [] => 0
  | byte :: rest => byte.toNat % 128 + 128 * continuationSum rest

/-- Bytes that encode an integer behind `size` bits of prefix, be they its
shortest form or not. -/
inductive PrefixEncoding (size : Nat) : List UInt8 → Nat → Prop where
  | inPrefix {first : UInt8} (small : first.toNat % 2 ^ size < 2 ^ size - 1) :
      PrefixEncoding size [first] (first.toNat % 2 ^ size)
  | continued {first last : UInt8} {more : List UInt8} (full : first.toNat % 2 ^ size = 2 ^ size - 1)
      (set : ∀ byte ∈ more, 128 ≤ byte.toNat) (clear : last.toNat < 128) :
      PrefixEncoding size (first :: (more ++ [last])) (2 ^ size - 1 + continuationSum (more ++ [last]))

theorem continuationSum_append (left right : List UInt8) :
    continuationSum (left ++ right) = continuationSum left + 128 ^ left.length * continuationSum right := by
  induction left with
  | nil => simp [continuationSum]
  | cons byte left ih =>
      simp only [List.cons_append, continuationSum, ih, List.length_cons, Nat.pow_succ]
      ring

theorem continuationSum_lt (bytes : List UInt8) : continuationSum bytes < 128 ^ bytes.length := by
  induction bytes with
  | nil => decide
  | cons byte rest ih =>
      simp only [continuationSum, List.length_cons, Nat.pow_succ]
      omega

theorem PrefixEncoding.value_eq {size value : Nat} {first : UInt8} {tail : List UInt8}
    (encoding : PrefixEncoding size (first :: tail) value) :
    value = first.toNat % 2 ^ size + continuationSum tail := by
  cases encoding with
  | inPrefix => rfl
  | continued full => rw [full]

theorem PrefixEncoding.unique {size : Nat} {bytes : List UInt8} {left right : Nat}
    (leftEncoding : PrefixEncoding size bytes left) (rightEncoding : PrefixEncoding size bytes right) :
    left = right := by
  cases bytes with
  | nil => cases leftEncoding
  | cons first tail => rw [leftEncoding.value_eq, rightEncoding.value_eq]

theorem low_bits (byte : UInt8) : (byte &&& 127).toNat = byte.toNat % 128 := by
  rw [UInt8.toNat_and]
  exact Nat.and_two_pow_sub_one_eq_mod _ 7

theorem high_bit (byte : UInt8) : byte &&& 128 = 0 ↔ byte.toNat < 128 := by
  have bound := byte.toNat_lt
  constructor
  · intro clear
    by_contra set
    have more := (more_byte (byte.toNat - 128) (by omega)).2
    rw [Nat.sub_add_cancel (by omega), UInt8.ofNat_toNat] at more
    exact more clear
  · intro small
    have last := (last_byte byte.toNat small).2
    rwa [UInt8.ofNat_toNat] at last

end Webtrans.Data
