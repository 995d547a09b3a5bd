import Webtrans.Proto.Qpack.StaticTable
import Mathlib.Data.Finmap
import Mathlib.Data.List.DropRight
import Mathlib.Data.List.Sort

namespace Webtrans.Proto.Qpack

open Webtrans.Data

/-! Header maps (`webtrans-proto/src/qpack.rs`). -/

def isLowercaseFieldNameByte (byte : UInt8) : Bool :=
  ('a'.toUInt8 ≤ byte && byte ≤ 'z'.toUInt8) || ('0'.toUInt8 ≤ byte && byte ≤ '9'.toUInt8) ||
    (asBytes "!#$%&'*+-.^_`|~").contains byte

/-- The name starts with a colon. -/
def isPseudo (name : String) : Bool :=
  (asBytes name).head? == some ':'.toUInt8

/-- The characters of Unicode's `White_Space`. -/
def isWhitespace (char : Char) : Bool :=
  let code := char.toNat
  (0x09 ≤ code && code ≤ 0x0d) || (0x2000 ≤ code && code ≤ 0x200a) ||
    [0x20, 0x85, 0xa0, 0x1680, 0x2028, 0x2029, 0x202f, 0x205f, 0x3000].contains code

def trim (text : String) : List Char :=
  (text.toList.dropWhile isWhitespace).rdropWhile isWhitespace

def toAsciiLowercase (char : Char) : Char :=
  if 'A' ≤ char ∧ char ≤ 'Z' then Char.ofNat (char.toNat + 32) else char

def eqIgnoreAsciiCase (left right : List Char) : Bool :=
  left.map toAsciiLowercase == right.map toAsciiLowercase

def connectionSpecific : List String :=
  ["connection", "proxy-connection", "keep-alive", "transfer-encoding", "upgrade"]

def validateField (name value : String) : Except DecodeError Unit :=
  let regularName := if isPseudo name then (asBytes name).tail else asBytes name
  if regularName.isEmpty || !regularName.all isLowercaseFieldNameByte then .error .invalidFieldName
  else if (asBytes value).any fun byte =>
      byte == 0x7f || byte == 0x0d || byte == 0x0a || (byte < 0x20 && byte != 0x09) then
    .error .invalidFieldValue
  else if name ∈ connectionSpecific then .error (.connectionSpecificField name)
  else if name = "te" && !eqIgnoreAsciiCase (trim value) "trailers".toList then
    .error (.connectionSpecificField name)
  else .ok ()

structure Headers where
  fields : Finmap fun _ : String => String
deriving DecidableEq

/-- An order in which the hash map yields its fields. -/
structure Headers.Iteration (headers : Headers) where
  order : List Field
  entries : (order : Multiset Field) = headers.fields.entries

namespace Headers

def get (headers : Headers) (name : String) : Option String :=
  headers.fields.lookup name

def set (headers : Headers) (name value : String) : Headers :=
  { fields := headers.fields.insert name value }

def decodeIndex : Parser DecodeError Field := fun buf =>
  match decodePrefix 6 buf with
  | .error error => .error error
  | .ok ((_, index), buf) =>
      match StaticTable.get index with
      | .error error => .error error
      | .ok field => .ok (field, buf)

/-- A string that has to be UTF-8.  What is wrong with it is left out of the error. -/
def decodeUtf8 (size : Nat) : Parser DecodeError String := fun buf =>
  match decodeString size buf with
  | .error error => .error error
  | .ok (bytes, buf) =>
      match fromUtf8 bytes with
      | none => .error .utf8Error
      | some text => .ok (text, buf)

def decodeLiteralValue : Parser DecodeError Field := fun buf =>
  match decodePrefix 4 buf with
  | .error error => .error error
  | .ok ((_, index), buf) =>
      match StaticTable.get index with
      | .error error => .error error
      | .ok ⟨name, _⟩ =>
          match decodeUtf8 8 buf with
          | .error error => .error error
          | .ok (value, buf) => .ok (⟨name, value⟩, buf)

def decodeLiteral : Parser DecodeError Field := fun buf =>
  match decodeUtf8 4 buf with
  | .error error => .error error
  | .ok (name, buf) =>
      match decodeUtf8 8 buf with
      | .error error => .error error
      | .ok (value, buf) => .ok (⟨name, value⟩, buf)

/-- One field line, by its first byte. -/
def decodeLine : Parser DecodeError Field
  | [] => .error .unexpectedEnd
  | peek :: buf =>
      let chain := peek :: buf
      if peek &&& 0b11000000 = 0b11000000 then decodeIndex chain
      else if peek &&& 0b11000000 = 0b10000000 then .error .dynamicEntry
      else if peek &&& 0b11010000 = 0b01010000 then decodeLiteralValue chain
      else if peek &&& 0b11010000 = 0b01000000 then .error .dynamicEntry
      else if peek &&& 0b11100000 = 0b00100000 then decodeLiteral chain
      else if peek &&& 0b11110000 = 0b00010000 then .error .dynamicEntry
      else if peek &&& 0b11110000 = 0b00000000 then .error .dynamicEntry
      else .error .unknownEntry

/-- The fields decoded so far. -/
structure DecodeState where
  fields : Finmap fun _ : String => String := ∅
  pseudoHeaders : List String := []
  sawRegularField : Bool := false

def DecodeState.accept (state : DecodeState) (field : Field) : Except DecodeError DecodeState :=
  let ⟨name, value⟩ := field
  match validateField name value with
  | .error error => .error error
  | .ok () =>
      if isPseudo name then
        if state.sawRegularField then .error .pseudoHeaderAfterRegularField
        else if name ∈ state.pseudoHeaders then .error (.duplicatePseudoHeader name)
        else .ok { state with
          fields := state.fields.insert name value, pseudoHeaders := name :: state.pseudoHeaders }
      else .ok { state with fields := state.fields.insert name value, sawRegularField := true }

theorem decodeIndex_shrinks : decodeIndex.Shrinks := by
  intro input field rest decoded
  simp only [decodeIndex] at decoded
  split at decoded
  · cases decoded
  · rename_i read
    split at decoded
    · cases decoded
    · cases decoded
      exact decodePrefix_length_lt read

theorem decodeUtf8_shrinks (size : Nat) : (decodeUtf8 size).Shrinks := by
  intro input text rest decoded
  simp only [decodeUtf8] at decoded
  split at decoded
  · cases decoded
  · rename_i read
    split at decoded
    · cases decoded
    · cases decoded
      exact decodeString_length_lt read

theorem decodeLiteralValue_shrinks : decodeLiteralValue.Shrinks := by
  intro input field rest decoded
  simp only [decodeLiteralValue] at decoded
  split at decoded
  · cases decoded
  · rename_i nameRead
    split at decoded
    · cases decoded
    · split at decoded
      · cases decoded
      · rename_i valueRead
        cases decoded
        have name := decodePrefix_length_lt nameRead
        have value := decodeUtf8_shrinks 8 valueRead
        omega

theorem decodeLiteral_shrinks : decodeLiteral.Shrinks := by
  intro input field rest decoded
  simp only [decodeLiteral] at decoded
  split at decoded
  · cases decoded
  · rename_i nameRead
    split at decoded
    · cases decoded
    · rename_i valueRead
      cases decoded
      have name := decodeUtf8_shrinks 4 nameRead
      have value := decodeUtf8_shrinks 8 valueRead
      omega

theorem decodeLine_shrinks : decodeLine.Shrinks := by
  intro input field rest decoded
  cases input with
  | nil => cases decoded
  | cons peek buf =>
      simp only [decodeLine] at decoded
      split at decoded
      · exact decodeIndex_shrinks decoded
      · split at decoded
        · cases decoded
        · split at decoded
          · exact decodeLiteralValue_shrinks decoded
          · split at decoded
            · cases decoded
            · split at decoded
              · exact decodeLiteral_shrinks decoded
              · split at decoded
                · cases decoded
                · split at decoded <;> cases decoded

/-- Decode a header section up to the end of the buffer. -/
def decode : Parser DecodeError Headers := fun buf =>
  match decodePrefix 8 buf with
  | .error error => .error error
  | .ok ((_, insertCount), buf) =>
      match decodePrefix 7 buf with
      | .error error => .error error
      | .ok ((sign, deltaBase), buf) =>
          if insertCount ≠ 0 ∨ sign ≠ 0 ∨ deltaBase ≠ 0 then .error .dynamicEntry
          else
            match decodeLine.foldItems decodeLine_shrinks DecodeState.accept {} buf with
            | .error error => .error error
            | .ok { fields, .. } => .ok ({ fields }, [])

def validatePseudoHeaders (headers : Headers) (iteration : headers.Iteration) (allowed : List String) :
    Except DecodeError Unit :=
  match iteration.order.find? fun field => isPseudo field.1 && !allowed.contains field.1 with
  | some field => .error (.invalidPseudoHeader field.1)
  | none => .ok ()

def encodeIndex (index : Nat) : List UInt8 :=
  encodePrefix 6 0b11 index

def encodeLiteralValue (name : Nat) (value : String) : List UInt8 :=
  encodePrefix 4 0b0101 name ++ encodePrefix 7 0b0 (asBytes value).length ++ asBytes value

def encodeLiteral (name value : String) : List UInt8 :=
  encodePrefix 3 0b00100 (asBytes name).length ++ asBytes name ++
    (encodePrefix 7 0b0 (asBytes value).length ++ asBytes value)

def encodeLine (field : Field) : List UInt8 :=
  let entry := StaticTable.lookup field.1 field.2
  match entry.exact with
  | some index => encodeIndex index
  | none =>
      match entry.name with
      | some index => encodeLiteralValue index field.2
      | none => encodeLiteral field.1 field.2

/-- Pseudo-headers first, else in the order of the hash map. -/
def sorted (order : List Field) : List Field :=
  order.insertionSort fun left right => (!isPseudo left.1) ≤ !isPseudo right.1

def encode (headers : Headers) (iteration : headers.Iteration) : List UInt8 :=
  encodePrefix 8 0 0 ++ encodePrefix 7 0 0 ++ (sorted iteration.order).flatMap encodeLine

end Headers

end Webtrans.Proto.Qpack
