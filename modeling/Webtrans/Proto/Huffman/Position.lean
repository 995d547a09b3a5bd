import Webtrans.Proto.Huffman.Decode

namespace Webtrans.Proto.Huffman

open Webtrans.Data

/-! The decoder on the bits of its input, as far as 32-bit positions reach. -/

theorem byte_slice (byte : UInt8) {bit len : UInt32} (positive : 0 < len.toNat)
    (inside : bit.toNat + len.toNat ≤ 8) :
    (byte <<< bit.toUInt8) >>> (8 - len).toUInt8 =
      UInt8.ofNat (natOfBits (((bitsOfNat 8 byte.toNat).drop bit.toNat).take len.toNat)) := by
  have back : (8 - len).toNat = 8 - len.toNat := by
    rw [UInt32.toNat_sub_of_le _ _ (UInt32.le_iff_toNat_le.mpr (by simp only [UInt32.reduceToNat]; omega))]
    rfl
  have bits : bit.toUInt8.toNat % 8 = bit.toNat := by
    simp only [UInt32.toNat_toUInt8]
    omega
  have backs : (8 - len).toUInt8.toNat % 8 = 8 - len.toNat := by
    simp only [UInt32.toNat_toUInt8, back]
    omega
  apply UInt8.toNat_inj.mp
  rw [natOfBits_slice _ _ _ (by rw [bitsOfNat_length]; omega), natOfBits_byte, bitsOfNat_length,
    UInt8.toNat_shiftRight, UInt8.toNat_shiftLeft, bits, backs, Nat.shiftLeft_eq,
    Nat.shiftRight_eq_div_pow, shifted_slice _ _ _ _ inside, UInt8.toNat_ofNat']
  refine (Nat.mod_eq_of_lt ?_).symm
  exact lt_of_lt_of_le (Nat.mod_lt _ (Nat.two_pow_pos _)) (Nat.pow_le_pow_right (by decide) (by omega))

theorem bytes_slice (first second : UInt8) {bit len : UInt32} (positive : 0 < len.toNat)
    (byteful : len.toNat ≤ 8) (small : bit.toNat < 8) :
    (((first.toUInt16 <<< 8 ||| second.toUInt16) <<< bit.toUInt16) >>> (16 - len).toUInt16).toUInt8 =
      UInt8.ofNat (natOfBits
        (((bitsOfNat 8 first.toNat ++ bitsOfNat 8 second.toNat).drop bit.toNat).take len.toNat)) := by
  have firstBound := first.toNat_lt
  have secondBound := second.toNat_lt
  have back : (16 - len).toNat = 16 - len.toNat := by
    rw [UInt32.toNat_sub_of_le _ _ (UInt32.le_iff_toNat_le.mpr (by simp only [UInt32.reduceToNat]; omega))]
    rfl
  have bits : bit.toUInt16.toNat % 16 = bit.toNat := by
    simp only [UInt32.toNat_toUInt16]
    omega
  have backs : (16 - len).toUInt16.toNat % 16 = 16 - len.toNat := by
    simp only [UInt32.toNat_toUInt16, back]
    omega
  have joined : (first.toUInt16 <<< 8 ||| second.toUInt16).toNat = first.toNat * 2 ^ 8 + second.toNat := by
    have high : (first.toUInt16 <<< 8).toNat = first.toNat <<< 8 := by
      rw [UInt16.toNat_shiftLeft, UInt8.toNat_toUInt16]
      simp only [UInt16.reduceToNat, Nat.reduceMod, Nat.shiftLeft_eq]
      omega
    rw [UInt16.toNat_or, high, UInt8.toNat_toUInt16, ← Nat.shiftLeft_add_eq_or_of_lt secondBound,
      Nat.shiftLeft_eq]
  apply UInt8.toNat_inj.mp
  rw [natOfBits_slice _ _ _ (by simp only [List.length_append, bitsOfNat_length]; omega),
    natOfBits_append, natOfBits_byte, natOfBits_byte, List.length_append, bitsOfNat_length,
    bitsOfNat_length, UInt16.toNat_toUInt8, UInt16.toNat_shiftRight, UInt16.toNat_shiftLeft, bits, backs,
    joined, Nat.shiftLeft_eq, Nat.shiftRight_eq_div_pow, shifted_slice _ _ _ _ (by omega),
    UInt8.toNat_ofNat']

theorem drop_bitsOf_getElem {src : List UInt8} {index : Nat} (inside : index < src.length) (bit : Nat) :
    (bitsOf src).drop (index * 8 + bit) =
      (bitsOfNat 8 src[index].toNat ++ bitsOf (src.drop (index + 1))).drop bit := by
  rw [← List.drop_drop, Nat.mul_comm, drop_bitsOf, List.drop_eq_getElem_cons inside, bitsOf_cons]

/-- Reading bits at a position that 32 bits hold, with the whole read. -/
theorem readBits_eq {src : List UInt8} (small : src.length < 2 ^ 29) {byte bit len : UInt32}
    (positive : 0 < len.toNat) (byteful : len.toNat ≤ 8) (inByte : bit.toNat < 8)
    (inside : byte.toNat * 8 + bit.toNat ≤ 8 * src.length)
    (fits : byte.toNat * 8 + bit.toNat + len.toNat < 2 ^ 32) :
    readBits src byte bit len =
      if 8 * src.length < byte.toNat * 8 + bit.toNat + len.toNat then .err
      else .ok (UInt8.ofNat (natOfBits
        (((bitsOf src).drop (byte.toNat * 8 + bit.toNat)).take len.toNat))) := by
  have refused : (len = 0 ∨ len > 8 ∨ UInt32.ofNat src.length * 8 < byte * 8 + bit + len) ↔
      8 * src.length < byte.toNat * 8 + bit.toNat + len.toNat := by
    simp only [← UInt32.toNat_inj, gt_iff_lt, UInt32.lt_iff_toNat_lt, UInt32.toNat_add, UInt32.toNat_mul,
      UInt32.toNat_ofNat', UInt32.reduceToNat]
    omega
  have sameByte : byte + bit / 8 = byte := by
    apply UInt32.toNat_inj.mp
    simp only [UInt32.toNat_add, UInt32.toNat_div, UInt32.reduceToNat]
    omega
  have sameBit : bit - bit / 8 * 8 = bit := by
    have zero : bit / 8 = 0 := by
      apply UInt32.toNat_inj.mp
      simp only [UInt32.toNat_div, UInt32.reduceToNat]
      omega
    rw [zero]
    simp
  have single : bit + len ≤ 8 ↔ bit.toNat + len.toNat ≤ 8 := by
    simp only [UInt32.le_iff_toNat_le, UInt32.toNat_add, UInt32.reduceToNat]
    omega
  rw [readBits]
  simp only [refused, sameByte, sameBit, single]
  by_cases short : 8 * src.length < byte.toNat * 8 + bit.toNat + len.toNat
  · rw [if_pos short, if_pos short]
  · rw [if_neg short, if_neg short]
    have first : byte.toNat < src.length := by omega
    rw [List.getElem?_eq_getElem first, drop_bitsOf_getElem first]
    have width : (bitsOfNat 8 src[byte.toNat].toNat).length = 8 := bitsOfNat_length 8 _
    by_cases one : bit.toNat + len.toNat ≤ 8
    · rw [if_pos one, List.drop_append_of_le_length (by omega),
        List.take_append_of_le_length (by simp only [List.length_drop]; omega)]
      dsimp only
      rw [byte_slice _ positive one]
    · rw [if_neg one]
      have second : byte.toNat + 1 < src.length := by omega
      have secondWidth : (bitsOfNat 8 src[byte.toNat + 1].toNat).length = 8 := bitsOfNat_length 8 _
      rw [List.getElem?_eq_getElem second, List.drop_eq_getElem_cons second, bitsOf_cons,
        ← List.append_assoc, List.drop_append_of_le_length (by simp only [List.length_append]; omega),
        List.take_append_of_le_length (by simp only [List.length_drop, List.length_append]; omega)]
      dsimp only
      rw [bytes_slice _ _ positive byteful inByte]

/-- The window stands before these bits, which end the input. -/
structure Before (input : List UInt8) (w : BitWindow) (bits : List Bool) : Prop where
  bit : w.bit.toNat < 8
  count : w.count.toNat ≤ 8
  inside : w.byte.toNat * 8 + w.bit.toNat + w.count.toNat ≤ 8 * input.length
  bits_eq : bits = (bitsOf input).drop (w.byte.toNat * 8 + w.bit.toNat + w.count.toNat)

theorem before_start (input : List UInt8) : Before input {} (bitsOf input) :=
  ⟨by decide, by decide, Nat.zero_le _, rfl⟩

variable {input : List UInt8} {w : BitWindow} {bits : List Bool}

theorem Before.length (before : Before input w bits) :
    w.byte.toNat * 8 + w.bit.toNat + w.count.toNat + bits.length = 8 * input.length := by
  have inside := before.inside
  rw [before.bits_eq, List.length_drop, bitsOf_length]
  omega

theorem Before.forwards (before : Before input w bits) (small : input.length < 2 ^ 29) (step : UInt32) :
    (w.forwards step).byte.toNat * 8 + (w.forwards step).bit.toNat =
        w.byte.toNat * 8 + w.bit.toNat + w.count.toNat ∧
      (w.forwards step).bit.toNat < 8 ∧ (w.forwards step).count = step := by
  obtain ⟨bit, count, inside, _⟩ := before
  simp only [BitWindow.forwards, UInt32.toNat_add, UInt32.toNat_div, UInt32.toNat_mod, UInt32.reduceToNat]
  refine ⟨by omega, by omega, trivial⟩

theorem Before.readBits (before : Before input w bits) (small : input.length < 2 ^ 29) {lookup : Nat}
    (positive : 0 < lookup) (byteful : lookup ≤ 8) (fits : 8 * input.length - bits.length + lookup < 2 ^ 32) :
    Huffman.readBits input (w.forwards (UInt32.ofNat lookup)).byte (w.forwards (UInt32.ofNat lookup)).bit
        (w.forwards (UInt32.ofNat lookup)).count =
      if bits.length < lookup then .err
      else .ok (UInt8.ofNat (natOfBits (bits.take lookup))) := by
  obtain ⟨position, inByte, count⟩ := before.forwards small (UInt32.ofNat lookup)
  have total := before.length
  have width : (UInt32.ofNat lookup).toNat = lookup := by
    rw [UInt32.toNat_ofNat']
    omega
  have inside : (w.forwards (UInt32.ofNat lookup)).byte.toNat * 8 +
      (w.forwards (UInt32.ofNat lookup)).bit.toNat ≤ 8 * input.length := by omega
  have read := readBits_eq small (show 0 < (UInt32.ofNat lookup).toNat by omega) (by omega) inByte inside
    (by omega)
  rw [count, read, position, width, ← before.bits_eq]
  by_cases short : bits.length < lookup
  · rw [if_pos short, if_pos (by omega)]
  · rw [if_neg short, if_neg (by omega)]

theorem Before.fetch (before : Before input w bits) (small : input.length < 2 ^ 29) {lookup : Nat}
    (positive : 0 < lookup) (byteful : lookup ≤ 8) (enough : lookup ≤ bits.length) :
    fetchValue (w.forwards (UInt32.ofNat lookup)) input =
        .ok (some (UInt8.ofNat (natOfBits (bits.take lookup))).toUInt32) ∧
      Before input (w.forwards (UInt32.ofNat lookup)) (bits.drop lookup) := by
  obtain ⟨position, inByte, count⟩ := before.forwards small (UInt32.ofNat lookup)
  have total := before.length
  have width : (UInt32.ofNat lookup).toNat = lookup := by
    rw [UInt32.toNat_ofNat']
    omega
  have read := before.readBits small positive byteful (by omega)
  rw [if_neg (by omega)] at read
  have counted : (w.forwards (UInt32.ofNat lookup)).count.toNat = lookup := by
    rw [count, width]
  refine ⟨by rw [fetchValue, read], inByte, by omega, by omega, ?_⟩
  rw [counted, position, before.bits_eq, List.drop_drop]

theorem index_eq (bits : List Bool) (byteful : bits.length ≤ 8) :
    (UInt8.ofNat (natOfBits bits)).toUInt32.toNat = natOfBits bits := by
  have bound := natOfBits_lt bits
  have limit : 2 ^ bits.length ≤ 2 ^ 8 := Nat.pow_le_pow_right (by decide) byteful
  rw [UInt8.toNat_toUInt32, UInt8.toNat_ofNat']
  omega

theorem eofFiller_eq {count : Nat} (positive : 0 < count) (last : count ≤ 7) :
    ((2 : UInt16) <<< (UInt32.ofNat count - 1).toUInt16 - 1).toUInt8 = UInt8.ofNat (2 ^ count - 1) := by
  have cases : count = 1 ∨ count = 2 ∨ count = 3 ∨ count = 4 ∨ count = 5 ∨ count = 6 ∨
      count = 7 := by omega
  rcases cases with rfl | rfl | rfl | rfl | rfl | rfl | rfl <;> rfl

theorem masked_ones {bits : List Bool} (last : bits.length ≤ 7) :
    (UInt8.ofNat (natOfBits bits) &&& UInt8.ofNat (2 ^ bits.length - 1) = UInt8.ofNat (2 ^ bits.length - 1)) ↔
      ∀ bit ∈ bits, bit = true := by
  have bound := natOfBits_lt bits
  have limit : 2 ^ bits.length ≤ 2 ^ 7 := Nat.pow_le_pow_right (by decide) last
  have valueNat : (UInt8.ofNat (natOfBits bits)).toNat = natOfBits bits := by
    rw [UInt8.toNat_ofNat']
    omega
  have maskNat : (UInt8.ofNat (2 ^ bits.length - 1)).toNat = 2 ^ bits.length - 1 := by
    rw [UInt8.toNat_ofNat']
    omega
  rw [← UInt8.toNat_inj, UInt8.toNat_and, valueNat, maskNat, Nat.and_two_pow_sub_one_eq_mod,
    Nat.mod_eq_of_lt bound, natOfBits_ones]

/-- The end check on the last bits of the input: nothing left, or only ones. -/
theorem checkEof_last (small : input.length < 2 ^ 29) {w : BitWindow} {bits : List Bool}
    (inByte : w.bit.toNat < 8) (position : w.byte.toNat * 8 + w.bit.toNat + bits.length = 8 * input.length)
    (last : bits.length ≤ 7) (unread : bits = (bitsOf input).drop (w.byte.toNat * 8 + w.bit.toNat)) :
    checkEof w input =
      if ∀ bit ∈ bits, bit = true then .ok none else .error (.missingBits w) := by
  have ahead : (w.byte + 1).toNat = w.byte.toNat + 1 := by
    simp only [UInt32.toNat_add, UInt32.reduceToNat]
    omega
  rw [checkEof]
  rw [ahead]
  by_cases empty : bits = []
  · subst empty
    have beyond : compare (w.byte.toNat + 1) input.length = .gt := by
      rw [Nat.compare_eq_gt]
      simp only [List.length_nil] at position
      omega
    rw [beyond]
    simp
  · have some := List.length_pos_iff.mpr empty
    have final : compare (w.byte.toNat + 1) input.length = .eq := by
      rw [Nat.compare_eq_eq]
      omega
    have rest : 8 - w.bit % 8 = UInt32.ofNat bits.length := by
      apply UInt32.toNat_inj.mp
      have less : w.bit % 8 ≤ 8 := by
        simp only [UInt32.le_iff_toNat_le, UInt32.toNat_mod, UInt32.reduceToNat]
        omega
      rw [UInt32.toNat_sub_of_le _ _ less, UInt32.toNat_ofNat']
      simp only [UInt32.toNat_mod, UInt32.reduceToNat]
      omega
    have width : (UInt32.ofNat bits.length).toNat = bits.length := by
      rw [UInt32.toNat_ofNat']
      omega
    have inside : w.byte.toNat * 8 + w.bit.toNat ≤ 8 * input.length := by omega
    have read := readBits_eq small (show 0 < (UInt32.ofNat bits.length).toNat by omega) (by omega) inByte
      inside (by omega)
    rw [if_neg (by omega), ← unread, width, List.take_length] at read
    rw [final]
    simp only [BitWindow.oppositeBitWindow, rest, read, eofFiller_eq some last, masked_ones last]

/-- The one read whose end 32 bits cannot hold. -/
theorem readBits_wraps {src : List UInt8} {byte bit : UInt32} (whole : src.length = 2 ^ 29 - 1)
    (end_ : byte.toNat = src.length) (start : bit.toNat = 0) : readBits src byte bit 8 = .panicked := by
  have byteEq : byte = 536870911 := UInt32.toNat_inj.mp (by rw [end_, whole]; rfl)
  have bitEq : bit = 0 := UInt32.toNat_inj.mp start
  subst byteEq bitEq
  have accepted : ¬ ((8 : UInt32) = 0 ∨ (8 : UInt32) > 8 ∨
      UInt32.ofNat src.length * 8 < (536870911 : UInt32) * 8 + 0 + 8) := by
    rw [whole]
    decide
  have beyond : src[((536870911 : UInt32) + 0 / 8).toNat]? = none := by
    rw [List.getElem?_eq_none_iff, whole]
    decide
  rw [readBits]
  rw [if_neg accepted]
  dsimp only
  rw [if_pos (by decide), beyond]

/-- Too few bits for a lookup: the end of the text or an error.  A lookup that
32 bits cannot hold, of a full byte at the end of 2^29 - 1 bytes, panics. -/
theorem Before.fetch_short (before : Before input w bits) (small : input.length < 2 ^ 29) {lookup : Nat}
    (byteful : lookup ≤ 8) (short : bits.length < lookup) :
    if (∀ bit ∈ bits, bit = true) ∧ 8 * input.length - bits.length + lookup < 2 ^ 32 then
      fetchValue (w.forwards (UInt32.ofNat lookup)) input = .ok none
    else ∃ error, fetchValue (w.forwards (UInt32.ofNat lookup)) input = .error error := by
  obtain ⟨position, inByte, count⟩ := before.forwards small (UInt32.ofNat lookup)
  have total := before.length
  by_cases fits : 8 * input.length - bits.length + lookup < 2 ^ 32
  · have read := before.readBits small (by omega) byteful fits
    rw [if_pos short] at read
    have ended := checkEof_last small inByte (by rw [position]; omega) (by omega)
      (by rw [position]; exact before.bits_eq)
    rw [fetchValue, read]
    dsimp only
    rw [ended]
    by_cases ones : ∀ bit ∈ bits, bit = true
    · rw [if_pos ⟨ones, fits⟩, if_pos ones]
    · rw [if_neg (fun both => ones both.1), if_neg ones]
      exact ⟨_, rfl⟩
  · rw [if_neg (fun both => fits both.2)]
    have full : lookup = 8 := by omega
    subst full
    have panicked := readBits_wraps (show input.length = 2 ^ 29 - 1 by omega)
      (show (w.forwards (UInt32.ofNat 8)).byte.toNat = input.length by omega)
      (show (w.forwards (UInt32.ofNat 8)).bit.toNat = 0 by omega)
    have eight : (w.forwards (UInt32.ofNat 8)).count = 8 := count
    rw [fetchValue, eight, panicked]
    exact ⟨_, rfl⟩

end Webtrans.Proto.Huffman
