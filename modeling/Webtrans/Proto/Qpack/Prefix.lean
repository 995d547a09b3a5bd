import Webtrans.Data.Bytes
import Webtrans.Data.PrefixInteger
import Webtrans.Data.Utf8
import Webtrans.Proto.Huffman.Decode

namespace Webtrans.Proto.Qpack

open Webtrans.Data

/-! Prefix integers and strings (`webtrans-proto/src/qpack.rs`), for a 64-bit
`usize`. -/

inductive DecodeError where
  | unexpectedEnd
  | boundsExceeded
  | dynamicEntry
  | unknownEntry
  | invalidFieldName
  | invalidFieldValue
  | pseudoHeaderAfterRegularField
  | duplicatePseudoHeader (name : String)
  | invalidPseudoHeader (name : String)
  | connectionSpecificField (name : String)
  | huffmanError (error : HuffmanError)
  | utf8Error
deriving DecidableEq, Repr

/-- Rust's `usize::checked_shl`: bits shifted out are lost. -/
def checkedShl (value power : Nat) : Option Nat :=
  if power < 64 then some ((value <<< power) % 2 ^ 64) else none

def checkedAdd (left right : Nat) : Option Nat :=
  if left + right < 2 ^ 64 then some (left + right) else none

def decodePrefixLoop (value power : Nat) : Parser DecodeError Nat
  | [] => .error .unexpectedEnd
  | byte :: buf =>
      if 64 ≤ power then .error .boundsExceeded
      else
        match checkedShl (byte &&& 127).toNat power with
        | none => .error .boundsExceeded
        | some increment =>
            match checkedAdd value increment with
            | none => .error .boundsExceeded
            | some value =>
                if byte &&& 128 = 0 then .ok (value, buf)
                else
                  match checkedAdd power 7 with
                  | none => .error .boundsExceeded
                  | some power => decodePrefixLoop value power buf

/-- Decode a prefix integer of 1 to 8 bits, with the flags before it. -/
def decodePrefix (size : Nat) : Parser DecodeError (UInt8 × Nat)
  | [] => .error .unexpectedEnd
  | first :: buf =>
      let flags := UInt8.ofNat (first.toNat >>> size)
      let mask := (0xff : UInt8) >>> UInt8.ofNat (8 - size)
      let first := first &&& mask
      if first < mask then .ok ((flags, first.toNat), buf)
      else
        match decodePrefixLoop mask.toNat 0 buf with
        | .error error => .error error
        | .ok (value, buf) => .ok ((flags, value), buf)

def encodePrefixLoop (remaining : Nat) : List UInt8 :=
  if 128 ≤ remaining then
    (UInt8.ofNat (remaining % 128) + 128) :: encodePrefixLoop (remaining / 128)
  else [UInt8.ofNat remaining]

def encodePrefix (size : Nat) (flags : UInt8) (value : Nat) : List UInt8 :=
  let mask := (~~~ ((0xff : UInt32) <<< UInt32.ofNat size)).toUInt8
  let flags := UInt8.ofNat (flags.toNat <<< size)
  if value < mask.toNat then [flags ||| UInt8.ofNat value]
  else (mask ||| flags) :: encodePrefixLoop (value - mask.toNat)

def decodeString (size : Nat) : Parser DecodeError (List UInt8) := fun buf =>
  if buf.isEmpty then .error .unexpectedEnd
  else
    match decodePrefix (size - 1) buf with
    | .error error => .error error
    | .ok ((flags, len), buf) =>
        if buf.length < len then .error .unexpectedEnd
        else
          let payload := buf.take len
          if flags &&& 1 = 0 then .ok (payload, buf.drop len)
          else
            match Huffman.hpackDecode payload with
            | .error error => .error (.huffmanError error)
            | .ok decoded => .ok (decoded, buf.drop len)

/-- One byte of the loop, as arithmetic. -/
theorem decodePrefixLoop_cons (value power : Nat) (byte : UInt8) (buf : List UInt8) :
    decodePrefixLoop value power (byte :: buf) =
      if 64 ≤ power then .error .boundsExceeded
      else
        let value := value + byte.toNat % 128 * 2 ^ power % 2 ^ 64
        if 2 ^ 64 ≤ value then .error .boundsExceeded
        else if byte.toNat < 128 then .ok (value, buf)
        else decodePrefixLoop value (power + 7) buf := by
  rw [decodePrefixLoop]
  by_cases beyond : 64 ≤ power
  · rw [if_pos beyond, if_pos beyond]
  · have next : power + 7 < 2 ^ 64 := by omega
    rw [if_neg beyond, if_neg beyond, checkedShl, if_pos (by omega), low_bits, Nat.shiftLeft_eq]
    dsimp only
    by_cases wraps : 2 ^ 64 ≤ value + byte.toNat % 128 * 2 ^ power % 2 ^ 64
    · rw [checkedAdd, if_neg (by omega), if_pos wraps]
    · rw [checkedAdd, if_pos (by omega), if_neg wraps]
      simp only [high_bit, checkedAdd, if_pos next]

theorem decodePrefixLoop_length_lt {value power result : Nat} {input rest : List UInt8}
    (decoded : decodePrefixLoop value power input = .ok (result, rest)) : rest.length < input.length := by
  induction input generalizing value power with
  | nil => cases decoded
  | cons byte buf ih =>
      rw [List.length_cons]
      rw [decodePrefixLoop_cons] at decoded
      split at decoded
      · cases decoded
      · dsimp only at decoded
        split at decoded
        · cases decoded
        · split at decoded
          · cases decoded
            omega
          · have later := ih decoded
            omega

theorem decodePrefix_length_lt {size : Nat} {result : UInt8 × Nat} {input rest : List UInt8}
    (decoded : decodePrefix size input = .ok (result, rest)) : rest.length < input.length := by
  cases input with
  | nil => cases decoded
  | cons first buf =>
      simp only [decodePrefix] at decoded
      split at decoded
      · cases decoded
        simp
      · split at decoded
        · cases decoded
        · rename_i value behind loop
          cases decoded
          have later := decodePrefixLoop_length_lt loop
          rw [List.length_cons]
          omega

theorem decodeString_length_lt {size : Nat} {text input rest : List UInt8}
    (decoded : decodeString size input = .ok (text, rest)) : rest.length < input.length := by
  simp only [decodeString] at decoded
  split at decoded
  · cases decoded
  · split at decoded
    · cases decoded
    · rename_i flags len behind length
      have later := decodePrefix_length_lt length
      split at decoded
      · cases decoded
      · have taken : (behind.drop len).length ≤ behind.length := by
          rw [List.length_drop]
          omega
        split at decoded
        · cases decoded
          omega
        · split at decoded
          · cases decoded
          · cases decoded
            omega

theorem decodePrefixLoop_reads {power : Nat} (shifted : power < 64) (base value : Nat)
    (fits : base + value * 2 ^ power < 2 ^ 64) :
    (decodePrefixLoop base power).Reads (continuation value) (base + value * 2 ^ power) := by
  induction value using Nat.strong_induction_on generalizing base power with
  | h value ih =>
      intro rest
      have scaled : value % 128 * 2 ^ power ≤ value * 2 ^ power :=
        Nat.mul_le_mul_right _ (Nat.mod_le value 128)
      by_cases small : value < 128
      · rw [Nat.mod_eq_of_lt small] at scaled
        have byte : (UInt8.ofNat value).toNat = value := by
          rw [UInt8.toNat_ofNat']
          omega
        rw [continuation_small small, List.singleton_append, decodePrefixLoop_cons, if_neg (by omega), byte,
          Nat.mod_eq_of_lt small, Nat.mod_eq_of_lt (by omega)]
        simp only [if_neg (show ¬ 2 ^ 64 ≤ base + value * 2 ^ power by omega), if_pos small]
      · have byte : (UInt8.ofNat (value % 128 + 128)).toNat = value % 128 + 128 := by
          rw [UInt8.toNat_ofNat']
          omega
        have low : (value % 128 + 128) % 128 = value % 128 := by omega
        have split : value * 2 ^ power = value % 128 * 2 ^ power + value / 128 * 2 ^ (power + 7) := by
          rw [Nat.pow_add, ← Nat.mul_assoc, Nat.mul_right_comm, ← Nat.add_mul]
          congr 1
          omega
        have later : power + 7 < 64 := by
          by_contra beyond
          have big : 2 ^ 64 ≤ 2 ^ (power + 7) := Nat.pow_le_pow_right (by decide) (by omega)
          have some : 1 * 2 ^ (power + 7) ≤ value / 128 * 2 ^ (power + 7) :=
            Nat.mul_le_mul_right _ (by omega)
          omega
        have rest := ih (value / 128) (by omega) later (base + value % 128 * 2 ^ power) (by omega) rest
        rw [continuation_more (by omega), List.cons_append, decodePrefixLoop_cons, if_neg (by omega), byte,
          low, Nat.mod_eq_of_lt (by omega), if_neg (by omega), if_neg (by omega), rest, split,
          Nat.add_assoc]

theorem decodeMask : ∀ size < 9, 0 < size →
    ((0xff : UInt8) >>> UInt8.ofNat (8 - size)).toNat = 2 ^ size - 1 := by
  decide

theorem encodeMask : ∀ size < 9, 0 < size →
    (~~~ ((0xff : UInt32) <<< UInt32.ofNat size)).toUInt8 = UInt8.ofNat (2 ^ size - 1) := by
  decide

theorem encodePrefixLoop_eq (remaining : Nat) : encodePrefixLoop remaining = continuation remaining := by
  induction remaining using Nat.strong_induction_on with
  | h remaining ih =>
      rw [encodePrefixLoop]
      split
      case isTrue more =>
        rw [continuation_more more, ih _ (by omega)]
        congr 1
        apply UInt8.toNat_inj.mp
        simp only [UInt8.toNat_add, UInt8.toNat_ofNat', UInt8.reduceToNat]
        omega
      case isFalse small => rw [continuation_small (by omega)]

section

variable {size : Nat} (positive : 0 < size) (byteful : size ≤ 8) {flags : Nat}
  (room : flags * 2 ^ size + (2 ^ size - 1) < 256)

include positive byteful room

/-- The flags and the value of a first byte. -/
theorem first_byte {low : Nat} (inside : low < 2 ^ size) :
    UInt8.ofNat ((UInt8.ofNat (flags * 2 ^ size + low)).toNat >>> size) = UInt8.ofNat flags ∧
      (UInt8.ofNat (flags * 2 ^ size + low) &&& (0xff : UInt8) >>> UInt8.ofNat (8 - size)).toNat = low := by
  have byte : (UInt8.ofNat (flags * 2 ^ size + low)).toNat = flags * 2 ^ size + low := by
    rw [UInt8.toNat_ofNat']
    omega
  rw [UInt8.toNat_and, byte, decodeMask size (by omega) positive, Nat.and_two_pow_sub_one_eq_mod,
    Nat.shiftRight_eq_div_pow, Nat.add_comm, Nat.add_mul_div_right _ _ (Nat.two_pow_pos size),
    Nat.div_eq_of_lt inside, Nat.zero_add, Nat.add_mul_mod_self_right, Nat.mod_eq_of_lt inside]
  exact ⟨rfl, rfl⟩

/-- An integer in shortest form is read back with its flags. -/
theorem decodePrefix_reads {value : Nat} (fits : value < 2 ^ 64) :
    (decodePrefix size).Reads (prefixInteger size (flags * 2 ^ size) value) (UInt8.ofNat flags, value) := by
  intro rest
  have mask := decodeMask size (by omega) positive
  have one : 1 ≤ 2 ^ size := Nat.two_pow_pos size
  rw [prefixInteger]
  split
  case isTrue small =>
    obtain ⟨flagsRead, low⟩ := first_byte positive byteful room (show value < 2 ^ size by omega)
    simp only [List.singleton_append, decodePrefix, flagsRead, UInt8.lt_iff_toNat_lt, low, mask]
    rw [if_pos small]
  case isFalse large =>
    obtain ⟨flagsRead, low⟩ := first_byte positive byteful room (show 2 ^ size - 1 < 2 ^ size by omega)
    have loop := decodePrefixLoop_reads (show 0 < 64 by decide) (2 ^ size - 1)
      (value - (2 ^ size - 1)) (by omega) rest
    simp only [List.cons_append, decodePrefix, flagsRead, UInt8.lt_iff_toNat_lt, low, mask, loop]
    rw [if_neg (by omega), Nat.pow_zero, Nat.mul_one, Nat.add_sub_cancel' (by omega)]

/-- The encoder writes the shortest form. -/
theorem encodePrefix_eq (value : Nat) :
    encodePrefix size (UInt8.ofNat flags) value = prefixInteger size (flags * 2 ^ size) value := by
  have one : 1 ≤ 2 ^ size := Nat.two_pow_pos size
  have flagsScaled : flags ≤ flags * 2 ^ size := Nat.le_mul_of_pos_right _ one
  have flagsByte : (UInt8.ofNat flags).toNat = flags := by
    rw [UInt8.toNat_ofNat']
    omega
  have joined {low : Nat} (inside : low < 2 ^ size) :
      UInt8.ofNat (flags <<< size) ||| UInt8.ofNat low = UInt8.ofNat (flags * 2 ^ size + low) := by
    apply UInt8.toNat_inj.mp
    rw [← Nat.shiftLeft_eq, Nat.shiftLeft_add_eq_or_of_lt inside, UInt8.ofNat_or]
  have mask := encodeMask size (by omega) positive
  have maskNat : (UInt8.ofNat (2 ^ size - 1)).toNat = 2 ^ size - 1 := by
    rw [UInt8.toNat_ofNat']
    omega
  rw [prefixInteger]
  simp only [encodePrefix, flagsByte, mask, maskNat]
  split
  case isTrue small => rw [joined (by omega)]
  case isFalse large => rw [UInt8.or_comm, joined (by omega), encodePrefixLoop_eq]

/-- A string behind its length is given back, or decoded, as the flag says. -/
theorem decodeString_eq {payload : List UInt8} (fits : payload.length < 2 ^ 64) (rest : List UInt8) :
    decodeString (size + 1) (prefixInteger size (flags * 2 ^ size) payload.length ++ payload ++ rest) =
      if UInt8.ofNat flags &&& 1 = 0 then .ok (payload, rest)
      else
        match Huffman.hpackDecode payload with
        | .error error => .error (.huffmanError error)
        | .ok decoded => .ok (decoded, rest) := by
  have length := decodePrefix_reads positive byteful room fits (payload ++ rest)
  have nonempty : (prefixInteger size (flags * 2 ^ size) payload.length ++ (payload ++ rest)).isEmpty = false := by
    rw [prefixInteger]
    split <;> rfl
  rw [decodeString, List.append_assoc, nonempty, Nat.add_sub_cancel, length]
  simp

end

/-- An integer is read back with its flags, whatever follows it. -/
theorem decodePrefix_encodePrefix {size : Nat} (positive : 0 < size) (byteful : size ≤ 8) {flags : UInt8}
    (room : flags.toNat < 2 ^ (8 - size)) {value : Nat} (fits : value < 2 ^ 64) (rest : List UInt8) :
    decodePrefix size (encodePrefix size flags value ++ rest) = .ok ((flags, value), rest) := by
  have one : 1 ≤ 2 ^ size := Nat.two_pow_pos size
  have byte : flags.toNat * 2 ^ size + (2 ^ size - 1) < 256 := by
    have scaled := Nat.mul_le_mul_right (2 ^ size) (Nat.succ_le_of_lt room)
    rw [← Nat.pow_add, Nat.sub_add_cancel byteful, Nat.succ_mul] at scaled
    omega
  have reads := decodePrefix_reads positive byteful byte fits rest
  have encoded := encodePrefix_eq positive byteful byte value
  rw [UInt8.ofNat_toNat] at reads encoded
  rw [encoded, reads]

/-- The largest integer behind a full byte: its last digit is shifted by 63. -/
theorem decodePrefix_encodePrefix_max :
    decodePrefix 8 (encodePrefix 8 0 (2 ^ 64 - 1) ++ [0xff]) = .ok ((0, 2 ^ 64 - 1), [0xff]) :=
  decodePrefix_encodePrefix (by decide) (by decide) (by decide) (by decide) [0xff]

end Webtrans.Proto.Qpack
