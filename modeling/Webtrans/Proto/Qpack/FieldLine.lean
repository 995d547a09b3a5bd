import Webtrans.Proto.Huffman.Strings
import Webtrans.Proto.Qpack.Headers

namespace Webtrans.Proto.Qpack

open Webtrans.Data

/-! Field lines that need no dynamic table (RFC 9204 section 4.5), in all their
representations. -/

/-- A string raw, or as a Huffman payload. -/
inductive StringForm where
  | raw
  | huffman (payload : List UInt8)
deriving DecidableEq, Repr

namespace StringForm

def Spells : StringForm → String → Prop
  | raw, _ => True
  | huffman payload, text => Huffman.RfcString payload (asBytes text)

/-- The H bit. -/
def flag : StringForm → Nat
  | raw => 0
  | huffman _ => 1

def content (form : StringForm) (text : String) : List UInt8 :=
  match form with
  | raw => asBytes text
  | huffman payload => payload

/-- The string behind its flag and its length of `size` bits. -/
def bytes (form : StringForm) (size high : Nat) (text : String) : List UInt8 :=
  prefixInteger size ((2 * high + form.flag) * 2 ^ size) (form.content text).length ++ form.content text

def payloads : StringForm → List (List UInt8)
  | raw => []
  | huffman payload => [payload]

theorem flag_lt (form : StringForm) : form.flag < 2 := by
  cases form <;> simp [flag]

end StringForm

/-- What an encoder chooses for a field.  `never` is the N bit. -/
inductive Representation where
  | indexed (index : Nat)
  | literalValue (never : Bool) (index : Nat) (value : StringForm)
  | literal (never : Bool) (name value : StringForm)
deriving DecidableEq, Repr

namespace Representation

def Legal : Representation → Field → Prop
  | indexed index, field => predefinedHeaders[index]? = some field
  | literalValue _ index value, field =>
      (∃ entryValue, predefinedHeaders[index]? = some ⟨field.1, entryValue⟩) ∧ value.Spells field.2
  | literal _ name value, field => name.Spells field.1 ∧ value.Spells field.2

def bytes : Representation → Field → List UInt8
  | indexed index, _ => prefixInteger 6 (0b11 * 2 ^ 6) index
  | literalValue never index value, field =>
      prefixInteger 4 ((0b0101 + 2 * never.toNat) * 2 ^ 4) index ++ value.bytes 7 0 field.2
  | literal never name value, field =>
      name.bytes 3 (0b0010 + never.toNat) field.1 ++ value.bytes 7 0 field.2

def contents : Representation → Field → List (List UInt8)
  | indexed _, _ => []
  | literalValue _ _ value, field => [value.content field.2]
  | literal _ name value, field => [name.content field.1, value.content field.2]

/-- The Huffman payloads of the line. -/
def payloads : Representation → List (List UInt8)
  | indexed _ => []
  | literalValue _ _ value => value.payloads
  | literal _ name value => name.payloads ++ value.payloads

end Representation

/-- A field in a legal representation, with strings of 64-bit lengths. -/
structure FieldLine where
  field : Field
  representation : Representation
  legal : representation.Legal field
  fits : ∀ content ∈ representation.contents field, content.length < 2 ^ 64

namespace FieldLine

def bytes (line : FieldLine) : List UInt8 :=
  line.representation.bytes line.field

def payloads (line : FieldLine) : List (List UInt8) :=
  line.representation.payloads

end FieldLine

/-- A string is read in every form, but for Huffman payloads whose bit length
32 bits cannot hold. -/
theorem decodeUtf8_form {size high : Nat} {form : StringForm} {text : String} (positive : 0 < size)
    (byteful : size ≤ 8) (room : (2 * high + form.flag) * 2 ^ size + (2 ^ size - 1) < 256)
    (spells : form.Spells text) (fits : (form.content text).length < 2 ^ 64) (rest : List UInt8) :
    if ∀ payload ∈ form.payloads, payload.length < 2 ^ 29 then
      Headers.decodeUtf8 (size + 1) (form.bytes size high text ++ rest) = .ok (text, rest)
    else ∃ error, Headers.decodeUtf8 (size + 1) (form.bytes size high text ++ rest) = .error error := by
  have read := decodeString_eq positive byteful room fits rest
  have hBit : UInt8.ofNat (2 * high + form.flag) &&& 1 = 0 ↔ form.flag = 0 := by
    have bit := form.flag_lt
    rw [← UInt8.toNat_inj, UInt8.toNat_and, UInt8.toNat_ofNat']
    show (2 * high + form.flag) % 2 ^ 8 &&& 1 = 0 ↔ _
    rw [Nat.and_one_is_mod]
    omega
  rw [StringForm.bytes, Headers.decodeUtf8, read]
  cases form with
  | raw =>
      rw [if_pos (by simp [StringForm.payloads]), if_pos (hBit.mpr rfl)]
      simp [StringForm.content]
  | huffman payload =>
      simp only [StringForm.payloads, List.mem_singleton, forall_eq]
      rw [if_neg (hBit.not.mpr Nat.one_ne_zero), StringForm.content]
      split
      case isTrue small =>
        rw [Huffman.hpackDecode_of_rfcString small spells]
        simp
      case isFalse large =>
        cases decoded : Huffman.hpackDecode payload with
        | error error => exact ⟨_, rfl⟩
        | ok bytes => exact absurd decoded (Huffman.hpackDecode_large (Nat.le_of_not_lt large) bytes)

/-! The decoder tells the representations apart by their first bytes. -/

theorem indexed_first : ∀ low < 2 ^ 6,
    UInt8.ofNat (0b11 * 2 ^ 6 + low) &&& 0b11000000 = 0b11000000 := by
  decide +kernel

theorem literalValue_first : ∀ never : Bool, ∀ low < 2 ^ 4,
    let first := UInt8.ofNat ((0b0101 + 2 * never.toNat) * 2 ^ 4 + low)
    first &&& 0b11000000 ≠ 0b11000000 ∧ first &&& 0b11000000 ≠ 0b10000000 ∧
      first &&& 0b11010000 = 0b01010000 := by
  decide +kernel

theorem literal_first : ∀ never : Bool, ∀ flag < 2, ∀ low < 2 ^ 3,
    let first := UInt8.ofNat ((2 * (0b0010 + never.toNat) + flag) * 2 ^ 3 + low)
    first &&& 0b11000000 ≠ 0b11000000 ∧ first &&& 0b11000000 ≠ 0b10000000 ∧
      first &&& 0b11010000 ≠ 0b01010000 ∧ first &&& 0b11010000 ≠ 0b01000000 ∧
      first &&& 0b11100000 = 0b00100000 := by
  decide +kernel

theorem decodeLine_indexed (index : Nat) (rest : List UInt8) :
    Headers.decodeLine (prefixInteger 6 (0b11 * 2 ^ 6) index ++ rest) =
      Headers.decodeIndex (prefixInteger 6 (0b11 * 2 ^ 6) index ++ rest) := by
  obtain ⟨low, tail, inside, first⟩ := prefixInteger_first 6 (0b11 * 2 ^ 6) index
  rw [first, List.cons_append, Headers.decodeLine, if_pos (indexed_first low inside)]

theorem decodeLine_literalValue (never : Bool) (index : Nat) (rest : List UInt8) :
    Headers.decodeLine (prefixInteger 4 ((0b0101 + 2 * never.toNat) * 2 ^ 4) index ++ rest) =
      Headers.decodeLiteralValue (prefixInteger 4 ((0b0101 + 2 * never.toNat) * 2 ^ 4) index ++ rest) := by
  obtain ⟨low, tail, inside, first⟩ := prefixInteger_first 4 ((0b0101 + 2 * never.toNat) * 2 ^ 4) index
  obtain ⟨notIndexed, notDynamic, named⟩ := literalValue_first never low inside
  rw [first, List.cons_append, Headers.decodeLine, if_neg notIndexed, if_neg notDynamic, if_pos named]

theorem decodeLine_literal (never : Bool) (form : StringForm) (text : String) (rest : List UInt8) :
    Headers.decodeLine (form.bytes 3 (0b0010 + never.toNat) text ++ rest) =
      Headers.decodeLiteral (form.bytes 3 (0b0010 + never.toNat) text ++ rest) := by
  obtain ⟨low, tail, inside, first⟩ := prefixInteger_first 3
    ((2 * (0b0010 + never.toNat) + form.flag) * 2 ^ 3) (form.content text).length
  obtain ⟨notIndexed, notDynamic, notNamed, notNamedDynamic, literal⟩ :=
    literal_first never form.flag form.flag_lt low inside
  rw [StringForm.bytes, first, List.cons_append, List.cons_append, Headers.decodeLine, if_neg notIndexed,
    if_neg notDynamic, if_neg notNamed, if_neg notNamedDynamic, if_pos literal]

theorem index_fits {index : Nat} {field : Field} (found : predefinedHeaders[index]? = some field) :
    index < 2 ^ 64 := by
  obtain ⟨inside, _⟩ := List.getElem?_eq_some_iff.mp found
  have total : predefinedHeaders.length = 99 := by decide
  omega

namespace FieldLine

theorem append_ne_nil (line : FieldLine) (rest : List UInt8) : line.bytes ++ rest ≠ [] := by
  have size (size high value : Nat) : 0 < (prefixInteger size high value).length := by
    obtain ⟨low, tail, _, first⟩ := prefixInteger_first size high value
    rw [first, List.length_cons]
    omega
  apply List.append_ne_nil_of_left_ne_nil
  apply List.ne_nil_of_length_pos
  rw [bytes]
  cases line.representation with
  | indexed index => exact size _ _ _
  | literalValue never index value =>
      rw [Representation.bytes, List.length_append]
      exact Nat.add_pos_left (size _ _ _) _
  | literal never name value =>
      rw [Representation.bytes, StringForm.bytes, List.append_assoc, List.length_append]
      exact Nat.add_pos_left (size _ _ _) _

/-- One line of the decoder's loop. -/
theorem decodeLine_bytes (line : FieldLine) (rest : List UInt8) :
    if ∀ payload ∈ line.payloads, payload.length < 2 ^ 29 then
      Headers.decodeLine (line.bytes ++ rest) = .ok (line.field, rest)
    else ∃ error, Headers.decodeLine (line.bytes ++ rest) = .error error := by
  obtain ⟨⟨name, value⟩, representation, legal, fits⟩ := line
  have valueRoom (form : StringForm) : (2 * 0 + form.flag) * 2 ^ 7 + (2 ^ 7 - 1) < 256 := by
    have bit := form.flag_lt
    omega
  cases representation with
  | indexed index =>
      have found : predefinedHeaders[index]? = some ⟨name, value⟩ := legal
      have read := decodePrefix_reads (show 0 < 6 by decide) (by decide)
        (show 0b11 * 2 ^ 6 + (2 ^ 6 - 1) < 256 by decide) (index_fits found) rest
      rw [if_pos (by simp [payloads, Representation.payloads]), bytes, Representation.bytes,
        decodeLine_indexed, Headers.decodeIndex, read]
      simp only [StaticTable.get, found]
  | literalValue never index form =>
      obtain ⟨⟨entryValue, found⟩, spells⟩ := legal
      have room : ∀ never : Bool, (0b0101 + 2 * never.toNat) * 2 ^ 4 + (2 ^ 4 - 1) < 256 := by decide
      have read := decodePrefix_reads (show 0 < 4 by decide) (by decide) (room never) (index_fits found)
        (form.bytes 7 0 value ++ rest)
      have valueRead := decodeUtf8_form (show 0 < 7 by decide) (by decide) (valueRoom form)
        spells (fits _ (List.mem_singleton.mpr rfl)) rest
      rw [bytes, Representation.bytes, List.append_assoc, decodeLine_literalValue,
        Headers.decodeLiteralValue, read]
      simp only [StaticTable.get, found, payloads, Representation.payloads]
      split at valueRead
      case isTrue small =>
        rw [if_pos small, valueRead]
      case isFalse large =>
        obtain ⟨error, failed⟩ := valueRead
        rw [if_neg large, failed]
        exact ⟨error, rfl⟩
  | literal never nameForm valueForm =>
      obtain ⟨nameSpells, valueSpells⟩ := legal
      have nameRoom : (2 * (0b0010 + never.toNat) + nameForm.flag) * 2 ^ 3 + (2 ^ 3 - 1) < 256 := by
        have bit := nameForm.flag_lt
        have nBit := never.toNat_lt
        omega
      have nameRead := decodeUtf8_form (show 0 < 3 by decide) (by decide) nameRoom nameSpells
        (fits _ List.mem_cons_self) (valueForm.bytes 7 0 value ++ rest)
      have valueRead := decodeUtf8_form (show 0 < 7 by decide) (by decide)
        (valueRoom valueForm) valueSpells (fits _ (List.mem_cons_of_mem _ (List.mem_singleton.mpr rfl))) rest
      rw [bytes, Representation.bytes, List.append_assoc, decodeLine_literal, Headers.decodeLiteral]
      simp only [payloads, Representation.payloads, List.forall_mem_append]
      split at nameRead
      case isTrue nameSmall =>
        rw [nameRead]
        split at valueRead
        case isTrue valueSmall =>
          rw [if_pos ⟨nameSmall, valueSmall⟩]
          dsimp only
          rw [valueRead]
        case isFalse valueLarge =>
          obtain ⟨error, failed⟩ := valueRead
          rw [if_neg (fun small => valueLarge small.2)]
          dsimp only
          rw [failed]
          exact ⟨error, rfl⟩
      case isFalse nameLarge =>
        obtain ⟨error, failed⟩ := nameRead
        rw [if_neg (fun small => nameLarge small.1), failed]
        exact ⟨error, rfl⟩

end FieldLine

end Webtrans.Proto.Qpack
