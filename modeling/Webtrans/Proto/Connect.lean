import Webtrans.Proto.Capsule
import Webtrans.Proto.Frame
import Webtrans.Proto.Qpack.FieldSection

namespace Webtrans.Proto

open Webtrans.Data

/-! CONNECT requests (`webtrans-proto/src/connect.rs`). -/

structure UrlCrate where
  Url : Type
  ParseError : Type
  parse : String → Except ParseError Url
  username : Url → String
  password : Url → Option String
  fragment : Url → Option String

/-- What the messages use of the `http` crate.  `tryFrom` of a method and
`fromStr` of a status are `none` for their errors. -/
structure HttpCrate where
  Method : Type
  decEq : DecidableEq Method
  tryFrom : String → Option Method
  connect : Method
  StatusCode : Type
  fromStr : String → Option StatusCode

instance (http : HttpCrate) : DecidableEq http.Method := http.decEq

variable {url : UrlCrate} {http : HttpCrate}

inductive ConnectError (url : UrlCrate) (http : HttpCrate) where
  | unexpectedEnd
  | qpackError (error : Qpack.DecodeError)
  | unexpectedFrame (typ : Frame)
  | invalidMethod
  | invalidUrl (error : url.ParseError)
  | invalidAuthority
  | invalidFragment
  | invalidStatus
  | messageTooLong
  | wrongStatus (status : Option http.StatusCode)
  | wrongMethod (method : Option http.Method)
  | wrongScheme (scheme : Option String)
  | wrongAuthority
  | wrongProtocol (protocol : Option String)
  | wrongPath
  | io (error : IoError)

structure ConnectRequest (url : UrlCrate) where
  url : url.Url

namespace ConnectRequest

def webtransportProtocol : String := "webtransport-h3"
def legacyWebtransportProtocol : String := "webtransport"

def urlText (authority pathAndQuery : String) : String :=
  "https" ++ "://" ++ authority ++ pathAndQuery

/-- The checks on the header map.  `iterate` is the order of its hash map. -/
def ofHeaders (url : UrlCrate) (http : HttpCrate) (iterate : ∀ headers : Qpack.Headers, headers.Iteration)
    (headers : Qpack.Headers) : Except (ConnectError url http) (ConnectRequest url) :=
  match headers.validatePseudoHeaders (iterate headers)
      [":method", ":scheme", ":authority", ":path", ":protocol"] with
  | .error error => .error (.qpackError error)
  | .ok () =>
      if headers.get ":scheme" ≠ some "https" then .error (.wrongScheme (headers.get ":scheme"))
      else
        match headers.get ":authority", headers.get ":path" with
        | none, _ => .error .wrongAuthority
        | some _, none => .error .wrongPath
        | some authority, some pathAndQuery =>
            match (headers.get ":method").map http.tryFrom with
            | some none => .error .invalidMethod
            | none => .error (.wrongMethod none)
            | some (some method) =>
                if method ≠ http.connect then .error (.wrongMethod (some method))
                else if headers.get ":protocol" ≠ some webtransportProtocol ∧
                    headers.get ":protocol" ≠ some legacyWebtransportProtocol then
                  .error (.wrongProtocol (headers.get ":protocol"))
                else
                  match url.parse (urlText authority pathAndQuery) with
                  | .error error => .error (.invalidUrl error)
                  | .ok parsed =>
                      if url.username parsed ≠ "" ∨ (url.password parsed).isSome then
                        .error .invalidAuthority
                      else if (url.fragment parsed).isSome then .error .invalidFragment
                      else .ok { url := parsed }

def decode (url : UrlCrate) (http : HttpCrate) (iterate : ∀ headers : Qpack.Headers, headers.Iteration) :
    Parser (ConnectError url http) (ConnectRequest url) := fun buf =>
  match Frame.read buf with
  | .error _ => .error .unexpectedEnd
  | .ok ((typ, data), buf) =>
      if typ ≠ Frame.headers then .error (.unexpectedFrame typ)
      else
        match Qpack.Headers.decode data with
        | .error error => .error (.qpackError error)
        | .ok (headers, _) =>
            match ofHeaders url http iterate headers with
            | .error error => .error error
            | .ok request => .ok (request, buf)

theorem ofHeaders_ok {iterate : ∀ headers : Qpack.Headers, headers.Iteration} {headers : Qpack.Headers}
    {request : ConnectRequest url} (accepted : ofHeaders url http iterate headers = .ok request) :
    ∃ authority pathAndQuery, headers.get ":authority" = some authority ∧
      headers.get ":path" = some pathAndQuery ∧
      url.parse (urlText authority pathAndQuery) = .ok request.url := by
  rw [ofHeaders] at accepted
  split at accepted
  · cases accepted
  · split at accepted
    · cases accepted
    · split at accepted
      · cases accepted
      · cases accepted
      · rename_i authority pathAndQuery authorityFound pathFound
        refine ⟨authority, pathAndQuery, authorityFound, pathFound, ?_⟩
        split at accepted
        · cases accepted
        · cases accepted
        · split at accepted
          · cases accepted
          · split at accepted
            · cases accepted
            · split at accepted
              · cases accepted
              · rename_i parsed
                split at accepted
                · cases accepted
                · split at accepted
                  · cases accepted
                  · cases accepted
                    exact parsed

/-- The `:authority` and `:path` fields of a request. -/
def target (buf : List UInt8) : Option (String × String) :=
  match Frame.read buf with
  | .error _ => none
  | .ok ((_, data), _) =>
      match Qpack.Headers.decode data with
      | .error _ => none
      | .ok (headers, _) =>
          match headers.get ":authority", headers.get ":path" with
          | some authority, some pathAndQuery => some (authority, pathAndQuery)
          | _, _ => none

theorem decode_target {iterate : ∀ headers : Qpack.Headers, headers.Iteration} {buf rest : List UInt8}
    {request : ConnectRequest url} (accepted : decode url http iterate buf = .ok (request, rest)) :
    ∃ authority pathAndQuery, target buf = some (authority, pathAndQuery) ∧
      url.parse (urlText authority pathAndQuery) = .ok request.url := by
  rw [decode] at accepted
  rw [target]
  split at accepted
  · cases accepted
  · rename_i frameRead
    split at accepted
    · cases accepted
    · split at accepted
      · cases accepted
      · rename_i headersDecoded
        split at accepted
        · cases accepted
        · rename_i checked
          cases accepted
          obtain ⟨authority, pathAndQuery, authorityFound, pathFound, parsed⟩ := ofHeaders_ok checked
          refine ⟨authority, pathAndQuery, ?_, parsed⟩
          rw [authorityFound, pathFound]

def isSlash (char : Char) : Bool :=
  char == '/' || char == '\x5c'

def endsAuthority (char : Char) : Bool :=
  isSlash char || char == '?' || char == '#'

/-- The authority of an `https` URL, and what is behind it: slashes after the
scheme are skipped, then the authority goes on to the first character that ends it. -/
def splitAuthority (text : String) : List Char × List Char :=
  ((text.toList.drop "https:".length).dropWhile isSlash).span fun char => !endsAuthority char

def BoundaryBetween (authority pathAndQuery : String) : Prop :=
  authority ≠ "" ∧ splitAuthority (urlText authority pathAndQuery) = (authority.toList, pathAndQuery.toList)

theorem splitAuthority_urlText (authority pathAndQuery : String) :
    splitAuthority (urlText authority pathAndQuery) =
      ((authority.toList ++ pathAndQuery.toList).dropWhile isSlash).span fun char => !endsAuthority char := by
  have slashes : isSlash '/' = true := by decide
  have text : (urlText authority pathAndQuery).toList =
      "https:".toList ++ ('/' :: '/' :: (authority.toList ++ pathAndQuery.toList)) := by
    simp [urlText, String.toList_append]
  have scheme : "https:".length = "https:".toList.length := by decide
  rw [splitAuthority, text, scheme, List.drop_left, List.dropWhile_cons, if_pos slashes, List.dropWhile_cons,
    if_pos slashes]

theorem span_append {α : Type} {keep : α → Bool} {front back : List α} :
    (front ++ back).span keep = (front, back) ↔
      (∀ x ∈ front, keep x = true) ∧ ∀ x, back.head? = some x → keep x = false := by
  rw [List.span_eq_takeWhile_dropWhile]
  constructor
  · intro split
    have taken : (front ++ back).takeWhile keep = front := congrArg Prod.fst split
    have dropped : (front ++ back).dropWhile keep = back := congrArg Prod.snd split
    constructor
    · intro x member
      rw [← taken] at member
      exact List.mem_takeWhile_imp member
    · intro x first
      rw [← dropped] at first
      exact Bool.eq_false_iff.mpr fun kept => by
        have none := List.head?_dropWhile_not keep (front ++ back)
        rw [first] at none
        simp [kept] at none
  · intro ⟨kept, stops⟩
    rw [List.takeWhile_append_of_pos kept, List.dropWhile_append_of_pos kept]
    cases back with
    | nil => simp
    | cons x back =>
        have stop := stops x rfl
        simp [stop]

theorem boundaryBetween_iff (authority pathAndQuery : String) :
    BoundaryBetween authority pathAndQuery ↔
      authority ≠ "" ∧ (∀ char ∈ authority.toList, endsAuthority char = false) ∧
        ∀ char, pathAndQuery.toList.head? = some char → endsAuthority char = true := by
  have unskipped (nonempty : authority ≠ "") (clean : ∀ char ∈ authority.toList, endsAuthority char = false) :
      (authority.toList ++ pathAndQuery.toList).dropWhile isSlash =
        authority.toList ++ pathAndQuery.toList := by
    cases chars : authority.toList with
    | nil => exact absurd (String.toList_eq_nil_iff.mp chars) nonempty
    | cons first rest =>
        have kept := clean first (chars ▸ List.mem_cons_self)
        simp only [endsAuthority, Bool.or_eq_false_iff] at kept
        rw [List.cons_append, List.dropWhile_cons, kept.1.1, if_neg Bool.false_ne_true]
  rw [BoundaryBetween, splitAuthority_urlText]
  constructor
  · intro ⟨nonempty, split⟩
    have clean : ∀ char ∈ authority.toList, endsAuthority char = false := by
      intro char member
      rw [List.span_eq_takeWhile_dropWhile] at split
      rw [← (Prod.mk.inj split).1] at member
      simpa using List.mem_takeWhile_imp member
    rw [unskipped nonempty clean, span_append] at split
    exact ⟨nonempty, clean, fun char first => by simpa using split.2 char first⟩
  · intro ⟨nonempty, clean, stops⟩
    refine ⟨nonempty, ?_⟩
    rw [unskipped nonempty clean, span_append]
    exact ⟨fun char member => by simp [clean char member], fun char first => by simp [stops char first]⟩

/-- The URL of an accepted request has its authority from the one field and its
path from the other exactly when the authority is not empty and holds none of
the characters that end it, and the path is empty or starts with one. -/
theorem decode_boundary {iterate : ∀ headers : Qpack.Headers, headers.Iteration} {buf rest : List UInt8}
    {request : ConnectRequest url} (accepted : decode url http iterate buf = .ok (request, rest)) :
    ∃ authority pathAndQuery, target buf = some (authority, pathAndQuery) ∧
      url.parse (urlText authority pathAndQuery) = .ok request.url ∧
      (BoundaryBetween authority pathAndQuery ↔
        authority ≠ "" ∧ (∀ char ∈ authority.toList, endsAuthority char = false) ∧
          ∀ char, pathAndQuery.toList.head? = some char → endsAuthority char = true) := by
  obtain ⟨authority, pathAndQuery, fields, parsed⟩ := decode_target accepted
  exact ⟨authority, pathAndQuery, fields, parsed, boundaryBetween_iff authority pathAndQuery⟩

/-- The URL of the two fields, for a parser that only splits it. -/
def sampleUrls : UrlCrate where
  Url := List Char × List Char
  ParseError := Unit
  parse text := if (splitAuthority text).1.isEmpty then .error () else .ok (splitAuthority text)
  username parsed :=
    if '@' ∈ parsed.1 then String.ofList (parsed.1.takeWhile fun char => char != '@' && char != ':') else ""
  password parsed :=
    if '@' ∈ parsed.1.dropWhile (· != ':') then
      some (String.ofList (((parsed.1.dropWhile (· != ':')).drop 1).takeWhile (· != '@')))
    else none
  fragment parsed :=
    if '#' ∈ parsed.2 then some (String.ofList ((parsed.2.dropWhile (· != '#')).drop 1)) else none

def sampleMethods : HttpCrate where
  Method := String
  decEq := inferInstance
  tryFrom name := if name.isEmpty then none else some name
  connect := "CONNECT"
  StatusCode := Nat
  fromStr text := text.toNat?

/-- A request to `good.example` whose path goes on with a host name. -/
def sampleRequest : List UInt8 :=
  [0x01, 0x3a, 0x00, 0x00, 0xcf, 0xd7] ++ ([0x50, 0x0c] ++ asBytes "good.example") ++
    ([0x51, 0x0e] ++ asBytes ".evil.example/") ++ ([0x27, 0x02] ++ asBytes ":protocol") ++
    ([0x0c] ++ asBytes "webtransport")

def sampleHeaders : Qpack.Headers where
  fields := [⟨":protocol", "webtransport"⟩, ⟨":path", ".evil.example/"⟩, ⟨":authority", "good.example"⟩,
    ⟨":scheme", "https"⟩, ⟨":method", "CONNECT"⟩].toFinmap

theorem sampleHeaders_pseudo (iteration : sampleHeaders.Iteration) :
    sampleHeaders.validatePseudoHeaders iteration
      [":method", ":scheme", ":authority", ":path", ":protocol"] = .ok () := by
  have allowed : ∀ field ∈ iteration.order,
      [":method", ":scheme", ":authority", ":path", ":protocol"].contains field.1 = true := by
    intro field member
    have found := lookup_of_entries iteration.entries member
    rw [sampleHeaders, Finmap.dlookup_list_toFinmap] at found
    have entry := List.mem_keys_of_mem (List.of_mem_dlookup found)
    simp only [List.keys, List.map_cons, List.map_nil, List.mem_cons, List.not_mem_nil, or_false] at entry
    obtain named | named | named | named | named := entry <;> rw [named] <;> decide +kernel
  rw [Qpack.Headers.validatePseudoHeaders, List.find?_eq_none.mpr]
  intro field member
  rw [allowed field member]
  simp

theorem sampleHeaders_accepted (iterate : ∀ headers : Qpack.Headers, headers.Iteration) :
    ofHeaders sampleUrls sampleMethods iterate sampleHeaders =
      .ok { url := ("good.example.evil.example".toList, "/".toList) } := by
  have scheme : sampleHeaders.get ":scheme" = some "https" := by decide +kernel
  have authority : sampleHeaders.get ":authority" = some "good.example" := by decide +kernel
  have path : sampleHeaders.get ":path" = some ".evil.example/" := by decide +kernel
  have method : sampleHeaders.get ":method" = some "CONNECT" := by decide +kernel
  have protocol : sampleHeaders.get ":protocol" = some "webtransport" := by decide +kernel
  have tried : sampleMethods.tryFrom "CONNECT" = some sampleMethods.connect := by decide +kernel
  have split : splitAuthority (urlText "good.example" ".evil.example/") =
      ("good.example.evil.example".toList, "/".toList) := by decide +kernel
  have parsed : sampleUrls.parse (urlText "good.example" ".evil.example/") =
      .ok ("good.example.evil.example".toList, "/".toList) := by
    simp only [sampleUrls, split]
    rfl
  simp only [ofHeaders, sampleHeaders_pseudo, scheme, authority, path, method, protocol, Option.map_some,
    tried, parsed, legacyWebtransportProtocol]
  rfl

theorem sampleRequest_accepted (iterate : ∀ headers : Qpack.Headers, headers.Iteration) :
    decode sampleUrls sampleMethods iterate sampleRequest =
      .ok ({ url := ("good.example.evil.example".toList, "/".toList) }, []) := by
  have frame : Frame.read sampleRequest = .ok ((Frame.headers, sampleRequest.drop 2), []) := by
    decide +kernel
  have headers : Qpack.Headers.decode (sampleRequest.drop 2) = .ok (sampleHeaders, []) := by
    decide +kernel
  rw [decode, frame]
  dsimp only
  rw [if_neg (by simp), headers]
  dsimp only
  rw [sampleHeaders_accepted]

/-- The host of the accepted URL comes from both fields. -/
theorem sampleRequest_boundary :
    ¬ ∀ (url : UrlCrate) (http : HttpCrate) (iterate : ∀ headers : Qpack.Headers, headers.Iteration)
      (buf rest : List UInt8) (request : ConnectRequest url),
      decode url http iterate buf = .ok (request, rest) →
        ∃ authority pathAndQuery, target buf = some (authority, pathAndQuery) ∧
          BoundaryBetween authority pathAndQuery := by
  intro bounded
  obtain ⟨authority, pathAndQuery, fields, _, split⟩ := bounded sampleUrls sampleMethods
    (fun headers => ⟨headers.fields.entries.toList, headers.fields.entries.coe_toList⟩) sampleRequest [] _
    (sampleRequest_accepted _)
  have target : target sampleRequest = some ("good.example", ".evil.example/") := by decide +kernel
  rw [target] at fields
  cases fields
  exact absurd split (by decide +kernel)

theorem decode_boundary_sample :
    ∃ authority pathAndQuery, target sampleRequest = some (authority, pathAndQuery) ∧
      sampleUrls.parse (urlText authority pathAndQuery) =
        .ok ("good.example.evil.example".toList, "/".toList) ∧
      (BoundaryBetween authority pathAndQuery ↔
        authority ≠ "" ∧ (∀ char ∈ authority.toList, endsAuthority char = false) ∧
          ∀ char, pathAndQuery.toList.head? = some char → endsAuthority char = true) :=
  decode_boundary (sampleRequest_accepted fun headers =>
    ⟨headers.fields.entries.toList, headers.fields.entries.coe_toList⟩)

end ConnectRequest

end Webtrans.Proto
