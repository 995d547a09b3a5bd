import Mathlib.Data.List.Basic
import Mathlib.Tactic.Ring

namespace Webtrans.Data

/-! Bit strings, most significant bit first. -/

/-- The integer denoted by bits in this order. -/
def natOfBits : List Bool → Nat
  | [] => 0
  | bit :: rest => bit.toNat * 2 ^ rest.length + natOfBits rest

def bitsOfNat : Nat → Nat → List Bool
  | 0, _ => []
  | count + 1, value => value.testBit count :: bitsOfNat count value

def bitsOf (bytes : List UInt8) : List Bool :=
  bytes.flatMap fun byte => bitsOfNat 8 byte.toNat

@[simp] theorem bitsOfNat_length (count value : Nat) : (bitsOfNat count value).length = count := by
  induction count with
  | zero => rfl
  | succ count ih => simp [bitsOfNat, ih]

theorem natOfBits_lt (bits : List Bool) : natOfBits bits < 2 ^ bits.length := by
  induction bits with
  | nil => simp [natOfBits]
  | cons bit rest ih =>
      have small : bit.toNat * 2 ^ rest.length ≤ 1 * 2 ^ rest.length :=
        Nat.mul_le_mul_right _ bit.toNat_le
      simp only [natOfBits, List.length_cons, Nat.pow_succ]
      omega

theorem natOfBits_append (front back : List Bool) :
    natOfBits (front ++ back) = natOfBits front * 2 ^ back.length + natOfBits back := by
  induction front with
  | nil => simp [natOfBits]
  | cons bit rest ih =>
      simp only [List.cons_append, natOfBits, ih, List.length_append]
      ring

theorem natOfBits_bitsOfNat (count value : Nat) : natOfBits (bitsOfNat count value) = value % 2 ^ count := by
  induction count with
  | zero => simp [bitsOfNat, natOfBits, Nat.mod_one]
  | succ count ih =>
      rw [bitsOfNat, natOfBits, ih, bitsOfNat_length, Nat.mod_pow_succ, Nat.toNat_testBit, Nat.mul_comm,
        Nat.add_comm]

theorem natOfBits_ones (bits : List Bool) :
    natOfBits bits = 2 ^ bits.length - 1 ↔ ∀ bit ∈ bits, bit = true := by
  induction bits with
  | nil => simp [natOfBits]
  | cons bit rest ih =>
      have below := natOfBits_lt rest
      have positive := Nat.two_pow_pos rest.length
      rw [List.forall_mem_cons, ← ih]
      simp only [natOfBits, List.length_cons, Nat.pow_succ]
      cases bit with
      | false => simp only [Bool.toNat_false, Bool.false_eq_true, false_and, iff_false]; omega
      | true => simp only [Bool.toNat_true, true_and]; omega

theorem natOfBits_byte (byte : UInt8) : natOfBits (bitsOfNat 8 byte.toNat) = byte.toNat := by
  rw [natOfBits_bitsOfNat, Nat.mod_eq_of_lt byte.toNat_lt]

theorem natOfBits_injective {left right : List Bool} (width : left.length = right.length)
    (same : natOfBits left = natOfBits right) : left = right := by
  induction left generalizing right with
  | nil => exact (List.eq_nil_of_length_eq_zero width.symm).symm
  | cons bit rest ih =>
      cases right with
      | nil => cases width
      | cons other others =>
          have restWidth := Nat.succ.inj width
          have below := natOfBits_lt rest
          have otherBelow := natOfBits_lt others
          simp only [natOfBits, restWidth] at same below
          have first : bit = other := by
            cases bit <;> cases other <;> simp only [Bool.toNat_false, Bool.toNat_true] at same <;>
              first | rfl | omega
          subst first
          rw [ih restWidth (Nat.add_left_cancel same)]

theorem bitsOfNat_natOfBits (bits : List Bool) : bitsOfNat bits.length (natOfBits bits) = bits := by
  apply natOfBits_injective (bitsOfNat_length _ _)
  rw [natOfBits_bitsOfNat, Nat.mod_eq_of_lt (natOfBits_lt bits)]

theorem natOfBits_slice (bits : List Bool) (offset count : Nat) (inside : offset + count ≤ bits.length) :
    natOfBits ((bits.drop offset).take count) =
      natOfBits bits / 2 ^ (bits.length - offset - count) % 2 ^ count := by
  have split : bits = bits.take offset ++ ((bits.drop offset).take count ++ bits.drop (offset + count)) := by
    rw [← List.drop_drop, List.take_append_drop, List.take_append_drop]
  have sliceLength : ((bits.drop offset).take count).length = count := by
    simp only [List.length_take, List.length_drop]
    omega
  have tailLength : (bits.drop (offset + count)).length = bits.length - offset - count := by
    simp only [List.length_drop]
    omega
  have slice := natOfBits_lt ((bits.drop offset).take count)
  have tail := natOfBits_lt (bits.drop (offset + count))
  have value := congrArg natOfBits split
  rw [natOfBits_append, natOfBits_append, List.length_append, sliceLength, tailLength] at value
  rw [sliceLength] at slice
  rw [tailLength] at tail
  generalize natOfBits ((bits.drop offset).take count) = middle at value slice ⊢
  generalize natOfBits (bits.drop (offset + count)) = low at value tail
  generalize bits.length - offset - count = width at value tail ⊢
  have grouped : natOfBits bits =
      low + 2 ^ width * (natOfBits (bits.take offset) * 2 ^ count + middle) := by
    rw [value]
    ring
  rw [grouped, Nat.add_mul_div_left _ _ (Nat.two_pow_pos width), Nat.div_eq_of_lt tail, Nat.zero_add,
    Nat.add_comm, Nat.add_mul_mod_self_right, Nat.mod_eq_of_lt slice]

/-- Shifting out the bits before a slice and those behind it leaves the slice. -/
theorem shifted_slice (value offset width count : Nat) (inside : offset + count ≤ width) :
    value * 2 ^ offset % 2 ^ width / 2 ^ (width - count) =
      value / 2 ^ (width - offset - count) % 2 ^ count := by
  obtain ⟨low, rfl⟩ := Nat.exists_eq_add_of_le inside
  have behind : offset + count + low - count = offset + low := by omega
  have between : offset + count + low - offset - count = low := by omega
  have whole : 2 ^ (offset + count + low) = 2 ^ offset * (2 ^ low * 2 ^ count) := by ring
  rw [behind, between, whole, Nat.mul_comm value, Nat.mul_mod_mul_left, Nat.pow_add,
    Nat.mul_div_mul_left _ _ (Nat.two_pow_pos offset), Nat.mod_mul_right_div_self]

@[simp] theorem bitsOf_nil : bitsOf [] = [] := rfl

theorem bitsOf_cons (byte : UInt8) (bytes : List UInt8) :
    bitsOf (byte :: bytes) = bitsOfNat 8 byte.toNat ++ bitsOf bytes := rfl

@[simp] theorem bitsOf_length (bytes : List UInt8) : (bitsOf bytes).length = 8 * bytes.length := by
  induction bytes with
  | nil => rfl
  | cons byte bytes ih =>
      rw [bitsOf_cons, List.length_append, bitsOfNat_length, ih, List.length_cons]
      omega

theorem drop_bitsOf (bytes : List UInt8) (count : Nat) :
    (bitsOf bytes).drop (8 * count) = bitsOf (bytes.drop count) := by
  induction count generalizing bytes with
  | zero => simp
  | succ count ih =>
      cases bytes with
      | nil => simp
      | cons byte bytes =>
          have width : (bitsOfNat 8 byte.toNat).length = 8 := bitsOfNat_length 8 byte.toNat
          rw [List.drop_succ_cons, ← ih, bitsOf_cons, List.drop_append, width,
            List.drop_eq_nil_of_le (by omega), List.nil_append]
          congr 1

/-- Whole bytes of the bits, the last one padded with ones. -/
def pack : List Bool → List UInt8
  | [] => []
  | a :: b :: c :: d :: e :: f :: g :: h :: rest =>
      UInt8.ofNat (natOfBits [a, b, c, d, e, f, g, h]) :: pack rest
  | short => [UInt8.ofNat (natOfBits (short ++ List.replicate (8 - short.length) true))]

theorem bitsOf_ofNat {bits : List Bool} (width : bits.length = 8) (rest : List UInt8) :
    bitsOf (UInt8.ofNat (natOfBits bits) :: rest) = bits ++ bitsOf rest := by
  have below := natOfBits_lt bits
  have kept := bitsOfNat_natOfBits bits
  rw [width] at below kept
  rw [bitsOf_cons, UInt8.toNat_ofNat_of_lt' below, kept]

/-- The bits come back with less than a byte of ones behind them. -/
theorem bitsOf_pack (bits : List Bool) :
    ∃ padding, bitsOf (pack bits) = bits ++ padding ∧ padding.length < 8 ∧
      ∀ bit ∈ padding, bit = true := by
  fun_induction pack bits with
  | case1 => exact ⟨[], rfl, by decide, by simp⟩
  | case2 a b c d e f g h rest ih =>
      obtain ⟨padding, split, few, ones⟩ := ih
      refine ⟨padding, ?_, few, ones⟩
      rw [bitsOf_ofNat rfl, split]
      rfl
  | case3 short filled few =>
      have width : short.length < 8 := by
        match short with
        | [] | [_] | [_, _] | [_, _, _] | [_, _, _, _] | [_, _, _, _, _] | [_, _, _, _, _, _]
        | [_, _, _, _, _, _, _] => simp
        | a :: b :: c :: d :: e :: f :: g :: h :: rest => exact absurd rfl (few a b c d e f g h rest)
      have nonempty : 0 < short.length := List.length_pos_iff.mpr filled
      refine ⟨List.replicate (8 - short.length) true, ?_, ?_, fun bit => List.eq_of_mem_replicate⟩
      · rw [bitsOf_ofNat (by simp only [List.length_append, List.length_replicate]; omega), bitsOf_nil,
          List.append_nil]
      · rw [List.length_replicate]
        omega

theorem pack_length (bits : List Bool) : (pack bits).length = (bits.length + 7) / 8 := by
  obtain ⟨padding, split, few, _⟩ := bitsOf_pack bits
  have width := congrArg List.length split
  rw [bitsOf_length, List.length_append] at width
  omega

end Webtrans.Data
