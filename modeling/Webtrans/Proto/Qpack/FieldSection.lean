import Webtrans.Data.Finmap
import Webtrans.Proto.Qpack.FieldLine

namespace Webtrans.Proto.Qpack

open Webtrans.Data

/-! Whole header sections: what the decoder makes of every legal one, and that
it reads back what the encoder writes. -/

namespace Headers

/-- Every field of the map is valid. -/
def Valid (headers : Headers) : Prop :=
  ∀ name value, headers.get name = some value → validateField name value = .ok ()

theorem accept_fields {state after : DecodeState} {field : Field} (accepted : state.accept field = .ok after) :
    validateField field.1 field.2 = .ok () ∧ after.fields = state.fields.insert field.1 field.2 := by
  obtain ⟨name, value⟩ := field
  rw [DecodeState.accept] at accepted
  dsimp only at accepted ⊢
  cases valid : validateField name value with
  | error error =>
      rw [valid] at accepted
      cases accepted
  | ok _ =>
      refine ⟨rfl, ?_⟩
      rw [valid] at accepted
      dsimp only at accepted
      split at accepted
      · split at accepted
        · cases accepted
        · split at accepted
          · cases accepted
          · cases accepted
            rfl
      · cases accepted
        rfl

/-- The decoder returns valid maps only, and reads its input to the end. -/
theorem decode_valid {input rest : List UInt8} {headers : Headers}
    (decoded : decode input = .ok (headers, rest)) : headers.Valid ∧ rest = [] := by
  simp only [decode] at decoded
  split at decoded
  · cases decoded
  · split at decoded
    · cases decoded
    · split at decoded
      · cases decoded
      · split at decoded
        · cases decoded
        · rename_i folded
          cases decoded
          refine ⟨?_, rfl⟩
          refine Parser.foldItems_keeps (fun state => Headers.Valid ⟨state.fields⟩) ?_ folded ?_
          · intro state field after accepted kept name value found
            obtain ⟨valid, fields⟩ := accept_fields accepted
            rw [get, fields] at found
            by_cases same : name = field.1
            · subst same
              rw [Finmap.lookup_insert] at found
              cases found
              exact valid
            · rw [Finmap.lookup_insert_of_ne _ same] at found
              exact kept name value found
          · intro name value found
            rw [get, Finmap.lookup_empty] at found
            cases found

/-- The decoder's checks on a list of fields. -/
structure Acceptable (fields : List Field) : Prop where
  valid : ∀ field ∈ fields, validateField field.1 field.2 = .ok ()
  pseudoFirst : fields.Pairwise fun earlier later => isPseudo later.1 = true → isPseudo earlier.1 = true
  distinct : fields.NodupKeys

/-- Acceptable fields are accepted one after the other. -/
theorem accept_all {fields : List Field} (acceptable : Acceptable fields) (state : DecodeState)
    (regular : state.sawRegularField = true → ∀ field ∈ fields, isPseudo field.1 = false)
    (apart : ∀ field ∈ fields, field.1 ∉ state.pseudoHeaders) :
    ∃ after, fields.foldlM DecodeState.accept state = .ok after ∧
      after.fields = fields.foldl (fun map field => map.insert field.1 field.2) state.fields := by
  induction fields generalizing state with
  | nil => exact ⟨state, rfl, rfl⟩
  | cons field fields ih =>
      obtain ⟨name, value⟩ := field
      obtain ⟨valid, pseudoFirst, distinct⟩ := acceptable
      obtain ⟨firstValid, valid⟩ := List.forall_mem_cons.mp valid
      obtain ⟨before, pseudoFirst⟩ := List.pairwise_cons.mp pseudoFirst
      obtain ⟨fresh, distinct⟩ := List.nodupKeys_cons.mp distinct
      obtain ⟨firstApart, apart⟩ := List.forall_mem_cons.mp apart
      rw [List.foldlM_cons, List.foldl_cons]
      simp only [DecodeState.accept, firstValid]
      by_cases pseudo : isPseudo name = true
      · have noRegular : state.sawRegularField = false := by
          cases saw : state.sawRegularField with
          | false => rfl
          | true =>
              have notPseudo := regular saw _ List.mem_cons_self
              rw [pseudo] at notPseudo
              cases notPseudo
        rw [if_pos pseudo, noRegular, if_neg Bool.false_ne_true, if_neg firstApart]
        refine ih ⟨valid, pseudoFirst, distinct⟩ _ ?_ ?_
        · intro saw
          cases saw
        · intro field member seen
          obtain same | earlier := List.mem_cons.mp seen
          · have key : field.1 ∈ fields.keys := List.mem_map_of_mem member
            rw [same] at key
            exact fresh key
          · exact apart field member earlier
      · rw [if_neg pseudo]
        refine ih ⟨valid, pseudoFirst, distinct⟩ _ ?_ apart
        intro _ field member
        rw [Bool.eq_false_iff]
        intro later
        exact pseudo (before field member later)

end Headers

/-- A legal header section behind the zero prefix. -/
structure FieldSection where
  lines : List FieldLine
  acceptable : Headers.Acceptable (lines.map (·.field))

namespace FieldSection

def bytes (fieldSection : FieldSection) : List UInt8 :=
  [0, 0] ++ fieldSection.lines.flatMap (·.bytes)

def headers (fieldSection : FieldSection) : Headers where
  fields := (fieldSection.lines.map (·.field)).toFinmap

/-- The Huffman payloads of all lines. -/
def payloads (fieldSection : FieldSection) : List (List UInt8) :=
  fieldSection.lines.flatMap (·.payloads)

end FieldSection

namespace Headers

/-- Lines whose Huffman payloads 32 bits can hold are folded field by field. -/
theorem foldItems_lines {lines : List FieldLine}
    (small : ∀ payload ∈ lines.flatMap (·.payloads), payload.length < 2 ^ 29) (state : DecodeState) :
    decodeLine.foldItems decodeLine_shrinks DecodeState.accept state (lines.flatMap (·.bytes)) =
      (lines.map (·.field)).foldlM DecodeState.accept state := by
  induction lines generalizing state with
  | nil => exact Parser.foldItems_nil state
  | cons line lines ih =>
      rw [List.flatMap_cons, List.forall_mem_append] at small
      have read := line.decodeLine_bytes (lines.flatMap (·.bytes))
      rw [if_pos small.1] at read
      rw [List.flatMap_cons, Parser.foldItems_read (line.append_ne_nil _) state read, List.map_cons,
        List.foldlM_cons]
      cases state.accept line.field with
      | error error => rfl
      | ok next => exact ih small.2 next

/-- One longer payload makes the decoder fail. -/
theorem foldItems_large {lines : List FieldLine} {payload : List UInt8}
    (member : payload ∈ lines.flatMap (·.payloads)) (large : 2 ^ 29 ≤ payload.length) (state : DecodeState) :
    ∃ error, decodeLine.foldItems decodeLine_shrinks DecodeState.accept state (lines.flatMap (·.bytes)) =
      .error error := by
  induction lines generalizing state with
  | nil => cases member
  | cons line lines ih =>
      have read := line.decodeLine_bytes (lines.flatMap (·.bytes))
      rw [List.flatMap_cons]
      split at read
      case isTrue small =>
        rw [Parser.foldItems_read (line.append_ne_nil _) state read]
        cases state.accept line.field with
        | error error => exact ⟨error, rfl⟩
        | ok next =>
            rw [List.flatMap_cons, List.mem_append] at member
            obtain here | later := member
            · exact absurd (small payload here) (Nat.not_lt_of_le large)
            · exact ih later next
      case isFalse =>
        obtain ⟨error, failed⟩ := read
        exact ⟨error, Parser.foldItems_failed (line.append_ne_nil _) state failed⟩

theorem decode_zero_prefix (buf : List UInt8) :
    decode ([0, 0] ++ buf) =
      match decodeLine.foldItems decodeLine_shrinks DecodeState.accept {} buf with
      | .error error => .error error
      | .ok { fields, .. } => .ok ({ fields }, []) := by
  have first : decodePrefix 8 ([0, 0] ++ buf) = .ok ((0, 0), 0 :: buf) := rfl
  have second : decodePrefix 7 (0 :: buf) = .ok ((0, 0), buf) := rfl
  rw [decode, first]
  dsimp only
  rw [second]
  rfl

theorem decode_of_small {fieldSection : FieldSection}
    (small : ∀ payload ∈ fieldSection.payloads, payload.length < 2 ^ 29) :
    decode fieldSection.bytes = .ok (fieldSection.headers, []) := by
  obtain ⟨after, accepted, fields⟩ := accept_all fieldSection.acceptable {}
    (fun saw => Bool.noConfusion saw) (by simp)
  rw [FieldSection.bytes, decode_zero_prefix, foldItems_lines small, accepted]
  dsimp only
  rw [fields, foldl_insert_empty fieldSection.acceptable.distinct]
  rfl

theorem decode_of_large {fieldSection : FieldSection} {payload : List UInt8}
    (member : payload ∈ fieldSection.payloads) (large : 2 ^ 29 ≤ payload.length) :
    ∃ error, decode fieldSection.bytes = .error error := by
  obtain ⟨error, failed⟩ := foldItems_large member large {}
  rw [FieldSection.bytes, decode_zero_prefix, failed]
  exact ⟨error, rfl⟩

/-- Every legal section is decoded to its fields, as long as 32 bits hold the
bit lengths of its Huffman payloads. -/
theorem decode_fieldSection (fieldSection : FieldSection) :
    decode fieldSection.bytes = .ok (fieldSection.headers, []) ↔
      ∀ payload ∈ fieldSection.payloads, payload.length < 2 ^ 29 := by
  constructor
  · intro decoded payload member
    by_contra large
    obtain ⟨error, failed⟩ := decode_of_large member (Nat.le_of_not_lt large)
    rw [failed] at decoded
    cases decoded
  · exact decode_of_small

/-! A section whose only value is longer: 2^29 ampersands, each a code of eight bits. -/

def ampersands (count : Nat) : String :=
  String.ofList (List.replicate count '&')

theorem ampersands_bytes (count : Nat) : asBytes (ampersands count) = List.replicate count 0x26 := by
  have byte : String.utf8EncodeChar '&' = [0x26] := by decide
  rw [ampersands, asBytes_ofList]
  induction count with
  | zero => rfl
  | succ count ih => rw [List.replicate_succ, List.flatMap_cons, ih, byte, List.replicate_succ]; rfl

theorem ampersands_coded (count : Nat) :
    Huffman.RfcString (List.replicate count 0xf8) (asBytes (ampersands count)) := by
  have code : TableDecoder.Code Huffman.hpackString (bitsOfNat 8 (0xf8 : UInt8).toNat) 0x26 := by
    have path : TableDecoder.Code Huffman.hpackString
        ([true, true, true, true, true] ++ ([false, false] ++ [false])) 0x26 :=
      .subtable rfl rfl (.subtable rfl rfl (.sym rfl rfl))
    exact path
  refine ⟨_, [], (List.append_nil _).symm, ?_, by decide, by simp⟩
  rw [ampersands_bytes]
  induction count with
  | zero => exact .nil
  | succ count ih => exact .cons code ih

theorem ampersands_valid (count : Nat) : validateField ":path" (ampersands count) = .ok () := by
  have clean : (asBytes (ampersands count)).any (fun byte =>
      byte == 0x7f || byte == 0x0d || byte == 0x0a || (byte < 0x20 && byte != 0x09)) = false := by
    rw [ampersands_bytes, List.any_eq_false]
    intro byte member
    rw [List.eq_of_mem_replicate member]
    decide
  have name : ((asBytes ":path").tail.isEmpty ||
      !(asBytes ":path").tail.all isLowercaseFieldNameByte) = false := by decide +kernel
  have pseudo : isPseudo ":path" = true := by decide +kernel
  have allowed : ":path" ∉ connectionSpecific := by decide +kernel
  simp only [validateField, if_pos pseudo, name, clean]
  simp [allowed]

def ampersandSection (count : Nat) (fits : count < 2 ^ 64) : FieldSection where
  lines := [{
    field := ⟨":path", ampersands count⟩
    representation := .literalValue false 1 (.huffman (List.replicate count 0xf8))
    legal := ⟨⟨"/", rfl⟩, ampersands_coded count⟩
    fits := by
      intro content member
      rw [List.mem_singleton.mp member]
      simpa [StringForm.content] using fits }]
  acceptable :=
    { valid := by
        intro field member
        rw [List.mem_singleton.mp member]
        exact ampersands_valid count
      pseudoFirst := List.pairwise_singleton _ _
      distinct := List.nodupKeys_singleton _ }

theorem decode_ampersands :
    ¬ ∀ fieldSection : FieldSection, decode fieldSection.bytes = .ok (fieldSection.headers, []) := by
  intro decodes
  have decoded := decodes (ampersandSection (2 ^ 29) (by decide))
  have member : List.replicate (2 ^ 29) 0xf8 ∈ (ampersandSection (2 ^ 29) (by decide)).payloads :=
    List.mem_singleton.mpr rfl
  obtain ⟨error, failed⟩ := decode_of_large member (by rw [List.length_replicate])
  rw [failed] at decoded
  cases decoded

/-- What the encoder chooses for a field. -/
def encoderChoice (field : Field) : Representation :=
  match (StaticTable.lookup field.1 field.2).exact, (StaticTable.lookup field.1 field.2).name with
  | some index, _ => .indexed index
  | none, some index => .literalValue false index .raw
  | none, none => .literal false .raw .raw

theorem encoderChoice_legal (field : Field) : (encoderChoice field).Legal field := by
  rw [encoderChoice]
  split
  next found => exact StaticTable.lookup_exact found
  next found => exact ⟨StaticTable.lookup_name found, trivial⟩
  next => exact ⟨trivial, trivial⟩

theorem encodeLine_eq (field : Field) : encodeLine field = (encoderChoice field).bytes field := by
  have indexed (index : Nat) : encodeIndex index = prefixInteger 6 (0b11 * 2 ^ 6) index :=
    encodePrefix_eq (by decide) (by decide) (by decide) index
  have named (index : Nat) : encodePrefix 4 0b0101 index = prefixInteger 4 (0b0101 * 2 ^ 4) index :=
    encodePrefix_eq (by decide) (by decide) (by decide) index
  have literal (length : Nat) : encodePrefix 3 0b00100 length = prefixInteger 3 (0b00100 * 2 ^ 3) length :=
    encodePrefix_eq (by decide) (by decide) (by decide) length
  have value (length : Nat) : encodePrefix 7 0b0 length = prefixInteger 7 (0b0 * 2 ^ 7) length :=
    encodePrefix_eq (by decide) (by decide) (by decide) length
  rw [encodeLine, encoderChoice]
  cases (StaticTable.lookup field.1 field.2).exact with
  | some index => exact indexed index
  | none =>
      cases (StaticTable.lookup field.1 field.2).name with
      | some index =>
          dsimp only
          rw [encodeLiteralValue, named, value, List.append_assoc]
          rfl
      | none =>
          dsimp only
          rw [encodeLiteral, literal, value]
          rfl

theorem encoderChoice_payloads (field : Field) : (encoderChoice field).payloads = [] := by
  rw [encoderChoice]
  split <;> rfl

/-- The lengths of the map's strings fit a 64-bit `usize`. -/
def Sized (headers : Headers) : Prop :=
  ∀ name value, headers.get name = some value →
    (asBytes name).length < 2 ^ 64 ∧ (asBytes value).length < 2 ^ 64

theorem predefinedHeaders_sized :
    ∀ field ∈ predefinedHeaders, (asBytes field.1).length < 2 ^ 64 ∧ (asBytes field.2).length < 2 ^ 64 := by
  decide +kernel

/-- A string that is not in the static table stands in the line itself. -/
theorem sized_of_encodeLine {field : Field} (short : (encodeLine field).length < 2 ^ 64) :
    (asBytes field.1).length < 2 ^ 64 ∧ (asBytes field.2).length < 2 ^ 64 := by
  rw [encodeLine] at short
  cases exact : (StaticTable.lookup field.1 field.2).exact with
  | some index => exact predefinedHeaders_sized _ (List.mem_of_getElem? (StaticTable.lookup_exact exact))
  | none =>
      cases named : (StaticTable.lookup field.1 field.2).name with
      | some index =>
          obtain ⟨entryValue, found⟩ := StaticTable.lookup_name named
          have name := (predefinedHeaders_sized _ (List.mem_of_getElem? found)).1
          simp only [exact, named, encodeLiteralValue, List.length_append] at short
          exact ⟨name, by omega⟩
      | none =>
          simp only [exact, named, encodeLiteral, List.length_append] at short
          exact ⟨by omega, by omega⟩

theorem encoderChoice_fits {field : Field}
    (sized : (asBytes field.1).length < 2 ^ 64 ∧ (asBytes field.2).length < 2 ^ 64) :
    ∀ content ∈ (encoderChoice field).contents field, content.length < 2 ^ 64 := by
  intro content member
  have strings : content = asBytes field.1 ∨ content = asBytes field.2 := by
    rw [encoderChoice] at member
    split at member
    · cases member
    · exact .inr (List.mem_singleton.mp member)
    · obtain name | value := List.mem_cons.mp member
      · exact .inl name
      · exact .inr (List.mem_singleton.mp value)
  obtain rfl | rfl := strings
  · exact sized.1
  · exact sized.2

theorem sorted_perm (order : List Field) : (sorted order).Perm order :=
  List.perm_insertionSort _ order

theorem sized_of_encode {headers : Headers} {iteration : headers.Iteration}
    (short : (headers.encode iteration).length < 2 ^ 64) : headers.Sized := by
  intro name value found
  have member : (⟨name, value⟩ : Field) ∈ sorted iteration.order := by
    rw [get, Finmap.lookup_eq_some_iff, ← iteration.entries] at found
    exact (sorted_perm _).mem_iff.mpr (Multiset.mem_coe.mp found)
  obtain ⟨front, back, split⟩ := List.append_of_mem member
  rw [encode, split, List.flatMap_append, List.flatMap_cons] at short
  simp only [List.length_append] at short
  exact @sized_of_encodeLine ⟨name, value⟩ (by omega)

theorem sorted_pseudoFirst (order : List Field) :
    (sorted order).Pairwise fun earlier later => isPseudo later.1 = true → isPseudo earlier.1 = true := by
  let before (left right : Field) : Prop := (!isPseudo left.1) ≤ !isPseudo right.1
  have total : Std.Total before := ⟨fun left right => le_total (!isPseudo left.1) (!isPseudo right.1)⟩
  have transitive : IsTrans Field before := ⟨fun _ _ _ first second => le_trans first second⟩
  refine (List.pairwise_insertionSort before order).imp ?_
  intro earlier later ordered pseudo
  have le : (!isPseudo earlier.1) ≤ !isPseudo later.1 := ordered
  rw [pseudo] at le
  cases first : isPseudo earlier.1 with
  | true => rfl
  | false =>
      rw [first] at le
      exact absurd le (by decide)

def encoderLine (field : Field)
    (sized : (asBytes field.1).length < 2 ^ 64 ∧ (asBytes field.2).length < 2 ^ 64) : FieldLine where
  field := field
  representation := encoderChoice field
  legal := encoderChoice_legal field
  fits := encoderChoice_fits sized

theorem sorted_found {headers : Headers} (iteration : headers.Iteration) :
    ∀ field ∈ sorted iteration.order, headers.get field.1 = some field.2 := by
  intro field member
  exact lookup_of_entries iteration.entries ((sorted_perm iteration.order).mem_iff.mp member)

section

variable {fields : List Field}
  (sized : ∀ field ∈ fields, (asBytes field.1).length < 2 ^ 64 ∧ (asBytes field.2).length < 2 ^ 64)

theorem encoderLines_fields : (fields.pmap encoderLine sized).map (·.field) = fields := by
  rw [List.map_pmap]
  exact List.pmap_eq_self.mpr fun _ _ => rfl

theorem encoderLines_bytes : (fields.pmap encoderLine sized).flatMap (·.bytes) = fields.flatMap encodeLine := by
  induction fields with
  | nil => rfl
  | cons field fields ih =>
      rw [List.pmap_cons, List.flatMap_cons, List.flatMap_cons, ih, encodeLine_eq]
      rfl

theorem encoderLines_payloads : (fields.pmap encoderLine sized).flatMap (·.payloads) = [] := by
  induction fields with
  | nil => rfl
  | cons field fields ih =>
      rw [List.pmap_cons, List.flatMap_cons, ih, List.append_nil]
      exact encoderChoice_payloads field

end

/-- Valid maps survive encoding and decoding, in every order of the hash map. -/
theorem decode_encode_of_valid {headers : Headers} (valid : headers.Valid) (sized : headers.Sized)
    (iteration : headers.Iteration) : decode (headers.encode iteration) = .ok (headers, []) := by
  have found := sorted_found iteration
  have sizedLines : ∀ field ∈ sorted iteration.order,
      (asBytes field.1).length < 2 ^ 64 ∧ (asBytes field.2).length < 2 ^ 64 :=
    fun field member => sized field.1 field.2 (found field member)
  have entries : (sorted iteration.order : Multiset Field) = headers.fields.entries := by
    rw [← iteration.entries]
    exact Multiset.coe_eq_coe.mpr (sorted_perm iteration.order)
  have acceptable : Acceptable (sorted iteration.order) :=
    { valid := fun field member => valid field.1 field.2 (found field member)
      pseudoFirst := sorted_pseudoFirst iteration.order
      distinct := nodupKeys_of_entries entries }
  let encoded : FieldSection :=
    { lines := (sorted iteration.order).pmap encoderLine sizedLines
      acceptable := by rwa [encoderLines_fields] }
  have bytes : headers.encode iteration = encoded.bytes := by
    rw [FieldSection.bytes, encoderLines_bytes]
    rfl
  have same : encoded.headers = headers := by
    rw [FieldSection.headers, encoderLines_fields, toFinmap_of_entries entries]
  have noPayloads : encoded.payloads = [] := encoderLines_payloads sizedLines
  rw [bytes, decode_of_small (by rw [noPayloads]; simp), same]

/-- So does every map that the decoder returns. -/
theorem decode_encode {headers : Headers}
    (source : headers.Valid ∨ ∃ input rest, decode input = .ok (headers, rest)) (sized : headers.Sized)
    (iteration : headers.Iteration) : decode (headers.encode iteration) = .ok (headers, []) := by
  obtain valid | ⟨input, rest, decoded⟩ := source
  · exact decode_encode_of_valid valid sized iteration
  · exact decode_encode_of_valid (decode_valid decoded).1 sized iteration

/-- A regular field and an indexed pseudo-header, in the order of the table. -/
def sample : Headers where
  fields := [⟨"x", "y"⟩, ⟨":path", "/"⟩].toFinmap

theorem decode_encode_sample :
    ∃ iteration : sample.Iteration, decode (sample.encode iteration) = .ok (sample, []) := by
  have decoded : decode [0x00, 0x00, 0xc1, 0x21, 0x78, 0x01, 0x79] = .ok (sample, []) := by decide +kernel
  have sized : sample.Sized := by
    intro name value found
    rw [get, sample, Finmap.dlookup_list_toFinmap] at found
    have member := List.of_mem_dlookup found
    simp only [List.mem_cons, Sigma.mk.injEq, heq_eq_eq, List.not_mem_nil, or_false] at member
    obtain ⟨rfl, rfl⟩ | ⟨rfl, rfl⟩ := member <;> decide +kernel
  exact ⟨⟨[⟨"x", "y"⟩, ⟨":path", "/"⟩], by decide +kernel⟩,
    decode_encode (.inr ⟨_, _, decoded⟩) sized _⟩

end Headers

end Webtrans.Proto.Qpack
