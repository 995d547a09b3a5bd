import Webtrans.Proto.ConnectUrl

namespace Webtrans.Proto

open Webtrans.Data

/-! CONNECT responses from the status of the server to that of the client
(`webtrans-proto/src/connect.rs`). -/

/-- What the server uses of the `http` crate besides. -/
structure StatusCrate extends HttpCrate where
  decEqStatus : DecidableEq StatusCode
  asStr : StatusCode → String
  ok : StatusCode
  internalServerError : StatusCode

instance (http : StatusCrate) : DecidableEq http.StatusCode := http.decEqStatus

/-- What is assumed of the `http` crate: a status is written as three digits
that are read as the status, and `CONNECT` is the name of its method. -/
structure StatusCrate.Lawful (http : StatusCrate) : Prop where
  length : ∀ status, (asBytes (http.asStr status)).length = 3
  digits : ∀ status, ∀ byte ∈ asBytes (http.asStr status), 0x30 ≤ byte ∧ byte ≤ 0x39
  fromStr_asStr : ∀ status, http.fromStr (http.asStr status) = some status
  tryFrom_connect : http.tryFrom "CONNECT" = some http.connect

namespace Qpack

theorem encodePrefix_length_le {value : Nat} (small : value < 128) (size : Nat) (flags : UInt8) :
    (encodePrefix size flags value).length ≤ 2 := by
  rw [encodePrefix]
  split
  case isTrue => simp
  case isFalse =>
    rw [encodePrefixLoop, if_neg (by omega)]
    simp

theorem predefinedHeaders_index {index : Nat} {field : Field} (found : predefinedHeaders[index]? = some field) :
    index < 128 := by
  obtain ⟨inside, _⟩ := List.getElem?_eq_some_iff.mp found
  have length : predefinedHeaders.length < 128 := by decide +kernel
  omega

theorem encodeLine_length_le {field : Field} (name : (asBytes field.1).length < 128)
    (value : (asBytes field.2).length < 128) :
    (Headers.encodeLine field).length ≤ 4 + (asBytes field.1).length + (asBytes field.2).length := by
  rw [Headers.encodeLine]
  cases exact : (StaticTable.lookup field.1 field.2).exact with
  | some index =>
      have coded := encodePrefix_length_le (predefinedHeaders_index (StaticTable.lookup_exact exact)) 6 0b11
      simp only [Headers.encodeIndex]
      omega
  | none =>
      have valueCoded := encodePrefix_length_le value 7 0b0
      cases named : (StaticTable.lookup field.1 field.2).name with
      | some index =>
          obtain ⟨entryValue, found⟩ := StaticTable.lookup_name named
          have coded := encodePrefix_length_le (predefinedHeaders_index found) 4 0b0101
          simp only [Headers.encodeLiteralValue, List.length_append]
          omega
      | none =>
          have coded := encodePrefix_length_le name 3 0b00100
          simp only [Headers.encodeLiteral, List.length_append]
          omega

theorem encode_length_le {headers : Headers} (iteration : headers.Iteration) {fields : List Field}
    (entries : headers.fields.entries = (fields : Multiset Field)) :
    (headers.encode iteration).length ≤ 4 + (fields.map fun field => (Headers.encodeLine field).length).sum := by
  have listed : (Headers.sorted iteration.order).Perm fields := by
    refine (Headers.sorted_perm _).trans (Multiset.coe_eq_coe.mp ?_)
    rw [iteration.entries, entries]
  have insertCount := encodePrefix_length_le (show 0 < 128 by decide) 8 0
  have deltaBase := encodePrefix_length_le (show 0 < 128 by decide) 7 0
  rw [Headers.encode, List.length_append, List.length_append, List.length_flatMap,
    (listed.map fun field => (Headers.encodeLine field).length).sum_eq]
  omega

theorem validateField_status {value : String} (digits : ∀ byte ∈ asBytes value, 0x30 ≤ byte ∧ byte ≤ 0x39) :
    validateField ":status" value = .ok () := by
  have clean : (asBytes value).any (fun byte =>
      byte == 0x7f || byte == 0x0d || byte == 0x0a || (byte < 0x20 && byte != 0x09)) = false := by
    rw [List.any_eq_false]
    intro byte member control
    obtain ⟨low, high⟩ := digits byte member
    simp only [Bool.or_eq_true, Bool.and_eq_true, beq_iff_eq, decide_eq_true_iff] at control
    obtain ((rfl | rfl) | rfl) | ⟨below, _⟩ := control
    · exact absurd high (by decide)
    · exact absurd low (by decide)
    · exact absurd low (by decide)
    · exact absurd (UInt8.le_trans (by decide) low) (UInt8.not_le.mpr below)
  have named : isPseudo ":status" = true ∧
      ((asBytes ":status").tail.isEmpty || !(asBytes ":status").tail.all isLowercaseFieldNameByte) = false ∧
      ":status" ∉ connectionSpecific ∧ ":status" ≠ "te" := by decide +kernel
  obtain ⟨pseudo, valid, unspecific, notTe⟩ := named
  simp only [validateField, if_pos pseudo, valid, clean]
  simp [unspecific, notTe]

end Qpack

namespace ConnectResponse

variable {http : StatusCrate}

/-- The header map that `encode` fills. -/
def headers (response : ConnectResponse http.toHttpCrate) : Qpack.Headers :=
  (({ fields := ∅ } : Qpack.Headers).set ":status" (http.asStr response.status)).set
    "sec-webtransport-http3-draft" "draft02"

def encode (response : ConnectResponse http.toHttpCrate) (iteration : response.headers.Iteration) : List UInt8 :=
  encodeHeadersFrame response.headers iteration

variable {response : ConnectResponse http.toHttpCrate}

theorem get_headers (name : String) :
    response.headers.get name =
      if name = "sec-webtransport-http3-draft" then some "draft02"
      else if name = ":status" then some (http.asStr response.status)
      else none := by
  simp only [Qpack.Headers.get, headers, Qpack.Headers.set, lookup_insert_ite, Finmap.lookup_empty]

theorem headers_entries :
    response.headers.fields.entries =
      (([⟨"sec-webtransport-http3-draft", "draft02"⟩, ⟨":status", http.asStr response.status⟩] :
        List Qpack.Field) : Multiset Qpack.Field) := by
  have status : ":status" ∉ (∅ : Finmap fun _ : String => String) := Finmap.notMem_empty
  have draft : "sec-webtransport-http3-draft" ∉
      (∅ : Finmap fun _ : String => String).insert ":status" (http.asStr response.status) := by
    rw [Finmap.mem_insert, not_or]
    exact ⟨by decide, Finmap.notMem_empty⟩
  calc
    response.headers.fields.entries =
        ⟨"sec-webtransport-http3-draft", "draft02"⟩ ::ₘ
          ((∅ : Finmap fun _ : String => String).insert ":status" (http.asStr response.status)).entries :=
      Finmap.entries_insert_of_notMem draft
    _ = _ := by
      rw [Finmap.entries_insert_of_notMem status]
      rfl

section

variable (lawful : http.Lawful)

include lawful

theorem headers_valid : response.headers.Valid := by
  intro name value found
  rw [get_headers] at found
  split_ifs at found with draft status
  · cases found
    rw [draft]
    decide +kernel
  · cases found
    rw [status]
    exact Qpack.validateField_status (lawful.digits response.status)

/-- A response of any status is a small frame. -/
theorem payload_length_le (iteration : response.headers.Iteration) :
    (response.headers.encode iteration).length ≤ 64 := by
  have encoded := Qpack.encode_length_le iteration headers_entries
  have width := lawful.length response.status
  have draft := @Qpack.encodeLine_length_le ⟨"sec-webtransport-http3-draft", "draft02"⟩ (by decide +kernel)
    (by decide +kernel)
  have draftWidth : (asBytes "sec-webtransport-http3-draft").length + (asBytes "draft02").length = 35 := by
    decide +kernel
  have statusWidth : (asBytes ":status").length = 7 := by decide +kernel
  have status := @Qpack.encodeLine_length_le ⟨":status", http.asStr response.status⟩ (by dsimp only; omega)
    (by dsimp only; omega)
  simp only [List.map_cons, List.map_nil, List.sum_cons, List.sum_nil] at encoded
  dsimp only at draft status
  omega

/-- The client's checks, in any order of its map. -/
theorem ofHeaders_headers {url : UrlCrate} (iterate : ∀ headers : Qpack.Headers, headers.Iteration) :
    ofHeaders url http.toHttpCrate iterate response.headers = .ok response := by
  have pseudo : response.headers.validatePseudoHeaders (iterate response.headers) [":status"] = .ok () := by
    rcases validatePseudoHeaders_cases response.headers (iterate response.headers)
      (iterate response.headers) [":status"] with ⟨accepted, _⟩ | ⟨name, _, disallowed, _⟩
    · exact accepted
    · obtain ⟨present, isPseudo, unlisted⟩ := disallowed
      obtain ⟨value, found⟩ := Finmap.mem_iff.mp present
      have found : response.headers.get name = some value := found
      rw [get_headers] at found
      split_ifs at found with draft status
      · rw [draft] at isPseudo
        exact absurd isPseudo (by decide +kernel)
      · exact absurd (List.mem_singleton.mpr status) unlisted
  have status : response.headers.get ":status" = some (http.asStr response.status) := by
    rw [get_headers]
    simp
  rw [ofHeaders, pseudo]
  dsimp only
  rw [status]
  dsimp only
  rw [lawful.fromStr_asStr]

/-- What the client makes of the header block. -/
theorem body_headers {url : UrlCrate} (iterate : ∀ headers : Qpack.Headers, headers.Iteration)
    (iteration : response.headers.Iteration) :
    headersBody (ofHeaders url http.toHttpCrate iterate) Frame.headers (response.headers.encode iteration) =
      .ok response := by
  have small := payload_length_le lawful iteration
  have short : (response.headers.encode iteration).length < 2 ^ 64 := by omega
  have sized : response.headers.Sized := Qpack.Headers.sized_of_encode short
  rw [headersBody, if_neg (by simp), Qpack.Headers.decode_encode_of_valid (headers_valid lawful) sized iteration]
  exact ofHeaders_headers lawful iterate

end

inductive SampleStatus where
  | ok
  | forbidden
  | internalServerError
deriving DecidableEq, Repr

def SampleStatus.asStr : SampleStatus → String
  | ok => "200"
  | forbidden => "403"
  | internalServerError => "500"

/-- Three of the statuses. -/
def sampleStatuses : StatusCrate where
  toHttpCrate :=
    { ConnectRequest.sampleMethods with
      StatusCode := SampleStatus
      fromStr := fun text =>
        [SampleStatus.ok, .forbidden, .internalServerError].find? fun status => status.asStr = text }
  decEqStatus := inferInstanceAs (DecidableEq SampleStatus)
  asStr := SampleStatus.asStr
  ok := SampleStatus.ok
  internalServerError := SampleStatus.internalServerError

theorem sampleStatuses_lawful : sampleStatuses.Lawful where
  length status := by cases status <;> decide +kernel
  digits status := by cases status <;> decide +kernel
  fromStr_asStr status := by cases status <;> rfl
  tryFrom_connect := by decide +kernel

def forbiddenResponse : ConnectResponse sampleStatuses.toHttpCrate where
  status := SampleStatus.forbidden

/-- One of the orders of the two fields. -/
def iteration (response : ConnectResponse http.toHttpCrate) : response.headers.Iteration where
  order := [⟨"sec-webtransport-http3-draft", "draft02"⟩, ⟨":status", http.asStr response.status⟩]
  entries := headers_entries.symm

end ConnectResponse

end Webtrans.Proto
