import Webtrans.Proto.ConnectReader

namespace Webtrans.Proto

open Webtrans.Data

/-! CONNECT requests from the URL of the client to that of the server
(`webtrans-proto/src/connect.rs` and the `client.rs` of both backends). -/

/-- What the client uses of the `url` crate besides. -/
structure ClientUrlCrate extends UrlCrate where
  scheme : Url → String
  authority : Url → String
  path : Url → String
  query : Url → Option String
  host : Url → Option String
  cannotBeABase : Url → Bool

/-- The one case that `validate_url` constructs. -/
inductive ClientError where
  | invalidUrl (reason : String)
deriving DecidableEq, Repr

def validateUrl (url : ClientUrlCrate) (target : url.Url) : Except ClientError Unit :=
  if url.scheme target ≠ "https" then .error (.invalidUrl "WebTransport requires an https URL")
  else if url.username target ≠ "" ∨ (url.password target).isSome then
    .error (.invalidUrl "userinfo is not supported in the authority")
  else if (url.fragment target).isSome then
    .error (.invalidUrl "URL fragments are not sent in HTTP request targets")
  else if url.cannotBeABase target ∨ (url.host target).isNone then
    .error (.invalidUrl "URL must contain a valid authority and path")
  else .ok ()

theorem validateUrl_ok {url : ClientUrlCrate} {target : url.Url} (valid : validateUrl url target = .ok ()) :
    url.scheme target = "https" ∧ url.username target = "" ∧ url.password target = none ∧
      url.fragment target = none := by
  rw [validateUrl] at valid
  split at valid
  · cases valid
  · rename_i scheme
    split at valid
    · cases valid
    · rename_i userinfo
      split at valid
      · cases valid
      · rename_i fragment
        rw [not_or] at userinfo
        exact ⟨not_not.mp scheme, not_not.mp userinfo.1, Option.not_isSome_iff_eq_none.mp userinfo.2,
          Option.not_isSome_iff_eq_none.mp fragment⟩

/-- The URL written out from its parts. -/
def ClientUrlCrate.text (url : ClientUrlCrate) (target : url.Url) : String :=
  "https://" ++ url.authority target ++ url.path target ++
    match url.query target with
    | some query => "?" ++ query
    | none => ""

/-- What is assumed of the `url` crate: a URL that the client accepts has parts
in printable ASCII, and parsing what they spell gives it back. -/
structure ClientUrlCrate.Lawful (url : ClientUrlCrate) : Prop where
  printable : ∀ target, validateUrl url target = .ok () →
    ∀ byte ∈ asBytes (url.text target), 0x20 ≤ byte ∧ byte < 0x7f
  parse_text : ∀ target, validateUrl url target = .ok () → url.parse (url.text target) = .ok target

/-- The length of the header block goes through a `u32`. -/
def encodeHeadersFrame (headers : Qpack.Headers) (iteration : headers.Iteration) : List UInt8 :=
  let payload := headers.encode iteration
  Frame.headers.encode ++ (VarInt.fromU32 (UInt32.ofNat payload.length)).encode ++ payload

theorem run_of_encodeHeadersFrame {headers : Qpack.Headers} {iteration : headers.Iteration}
    (short : (headers.encode iteration).length < 2 ^ 32) :
    ∃ run : FrameRun, encodeHeadersFrame headers iteration = run.bytes ∧ run.frame.typ = Frame.headers.typ ∧
      run.frame.payload = headers.encode iteration := by
  have bound : (headers.encode iteration).length < 2 ^ 62 := by omega
  have length : VarInt.fromU32 (UInt32.ofNat (headers.encode iteration).length) =
      ⟨(headers.encode iteration).length, bound⟩ := by
    apply VarInt.ext
    exact UInt32.toNat_ofNat'.trans (Nat.mod_eq_of_lt short)
  have ordinary : isGreaseValue Frame.headers.typ.intoInner = false := by decide
  refine ⟨FrameRun.only (Tlv.shortest Frame.headers.typ (headers.encode iteration) bound) ordinary, ?_, rfl, rfl⟩
  rw [encodeHeadersFrame, length]
  rfl

namespace ConnectRequest

variable {url : ClientUrlCrate}

def pathAndQuery (request : ConnectRequest url.toUrlCrate) : String :=
  match url.query request.url with
  | some query => url.path request.url ++ "?" ++ query
  | none => url.path request.url

/-- The header map that `encode` fills. -/
def headers (request : ConnectRequest url.toUrlCrate) : Qpack.Headers :=
  ((((({ fields := ∅ } : Qpack.Headers).set ":method" "CONNECT").set ":scheme" (url.scheme request.url)).set
    ":authority" (url.authority request.url)).set ":path" request.pathAndQuery).set ":protocol"
      webtransportProtocol

def encode (request : ConnectRequest url.toUrlCrate) (iteration : request.headers.Iteration) : List UInt8 :=
  encodeHeadersFrame request.headers iteration

theorem get_headers (request : ConnectRequest url.toUrlCrate) (name : String) :
    request.headers.get name =
      if name = ":protocol" then some webtransportProtocol
      else if name = ":path" then some request.pathAndQuery
      else if name = ":authority" then some (url.authority request.url)
      else if name = ":scheme" then some (url.scheme request.url)
      else if name = ":method" then some "CONNECT"
      else none := by
  simp only [Qpack.Headers.get, headers, Qpack.Headers.set, lookup_insert_ite, Finmap.lookup_empty]

theorem text_eq (request : ConnectRequest url.toUrlCrate) :
    url.text request.url = urlText (url.authority request.url) request.pathAndQuery := by
  have scheme : "https://" = "https" ++ "://" := by decide
  rw [ClientUrlCrate.text, urlText, pathAndQuery, scheme]
  cases url.query request.url with
  | none => rw [String.append_empty]
  | some query => simp only [String.append_assoc]

/-- Printable ASCII is allowed in the value of every pseudo-header. -/
theorem validateField_printable {name value : String} (pseudo : name ∈ requestPseudoHeaders)
    (printable : ∀ byte ∈ asBytes value, 0x20 ≤ byte ∧ byte < 0x7f) :
    Qpack.validateField name value = .ok () := by
  have clean : (asBytes value).any (fun byte =>
      byte == 0x7f || byte == 0x0d || byte == 0x0a || (byte < 0x20 && byte != 0x09)) = false := by
    rw [List.any_eq_false]
    intro byte member control
    obtain ⟨low, high⟩ := printable byte member
    simp only [Bool.or_eq_true, Bool.and_eq_true, beq_iff_eq, decide_eq_true_iff] at control
    obtain ((same | same) | same) | ⟨below, _⟩ := control
    · subst same
      exact absurd high (by decide)
    · subst same
      exact absurd low (by decide)
    · subst same
      exact absurd low (by decide)
    · exact absurd low (UInt8.not_le.mpr below)
  have named : ∀ name ∈ requestPseudoHeaders, Qpack.isPseudo name = true ∧
      ((asBytes name).tail.isEmpty || !(asBytes name).tail.all Qpack.isLowercaseFieldNameByte) = false ∧
      name ∉ Qpack.connectionSpecific ∧ name ≠ "te" := by decide +kernel
  obtain ⟨isPseudo, valid, unspecific, notTe⟩ := named name pseudo
  simp only [Qpack.validateField, if_pos isPseudo, valid, clean]
  simp [unspecific, notTe]

section

variable {request : ConnectRequest url.toUrlCrate} (lawful : url.Lawful)
  (valid : validateUrl url request.url = .ok ())

include lawful valid

theorem headers_valid : request.headers.Valid := by
  have printable := lawful.printable request.url valid
  rw [text_eq, urlText, asBytes_append, asBytes_append] at printable
  obtain ⟨front, pathBytes⟩ := List.forall_mem_append.mp printable
  obtain ⟨_, authorityBytes⟩ := List.forall_mem_append.mp front
  obtain ⟨https, _⟩ := validateUrl_ok valid
  intro name value found
  rw [get_headers, https] at found
  split_ifs at found with protocol path authority scheme method
  · cases found
    exact validateField_printable (by rw [protocol]; decide) (by decide +kernel)
  · cases found
    exact validateField_printable (by rw [path]; decide) pathBytes
  · cases found
    exact validateField_printable (by rw [authority]; decide) authorityBytes
  · cases found
    exact validateField_printable (by rw [scheme]; decide) (by decide +kernel)
  · cases found
    exact validateField_printable (by rw [method]; decide) (by decide +kernel)

/-- The server's checks, in any order of its map. -/
theorem ofHeaders_headers {http : HttpCrate} (connects : http.tryFrom "CONNECT" = some http.connect)
    (iterate : ∀ headers : Qpack.Headers, headers.Iteration) :
    ofHeaders url.toUrlCrate http iterate request.headers = .ok request := by
  obtain ⟨https, username, password, fragment⟩ := validateUrl_ok valid
  have pseudo : request.headers.validatePseudoHeaders (iterate request.headers) requestPseudoHeaders = .ok () := by
    rcases validatePseudoHeaders_cases request.headers (iterate request.headers) (iterate request.headers)
      requestPseudoHeaders with ⟨accepted, _⟩ | ⟨name, _, disallowed, _⟩
    · exact accepted
    · obtain ⟨present, _, unlisted⟩ := disallowed
      obtain ⟨value, found⟩ := Finmap.mem_iff.mp present
      have listed : ∀ other ∉ requestPseudoHeaders, request.headers.get other = none := by
        intro other outside
        simp only [requestPseudoHeaders, List.mem_cons, List.not_mem_nil, or_false, not_or] at outside
        obtain ⟨method, scheme, authority, path, protocol⟩ := outside
        rw [get_headers, if_neg protocol, if_neg path, if_neg authority, if_neg scheme, if_neg method]
      have missing := listed name unlisted
      rw [Qpack.Headers.get, found] at missing
      cases missing
  have scheme : request.headers.get ":scheme" = some "https" :=
    (get_headers request _).trans (congrArg some https)
  have authority : request.headers.get ":authority" = some (url.authority request.url) := get_headers request _
  have path : request.headers.get ":path" = some request.pathAndQuery := get_headers request _
  have method : request.headers.get ":method" = some "CONNECT" := get_headers request _
  have protocol : request.headers.get ":protocol" = some webtransportProtocol := get_headers request _
  have parsed := lawful.parse_text request.url valid
  rw [text_eq] at parsed
  rw [requestPseudoHeaders] at pseudo
  simp only [ofHeaders, pseudo, scheme, authority, path, method, protocol, Option.map_some, connects, parsed,
    username, password, fragment]
  simp

/-- A CONNECT request reaches the server with the URL of the client, whatever
the orders of the two header maps and whatever follows the frame. -/
theorem decode_encode_url {http : HttpCrate} (connects : http.tryFrom "CONNECT" = some http.connect)
    {iteration : request.headers.Iteration} (short : (request.headers.encode iteration).length < 2 ^ 32)
    (iterate : ∀ headers : Qpack.Headers, headers.Iteration) (rest : List UInt8) :
    decode url.toUrlCrate http iterate (request.encode iteration ++ rest) = .ok (request, rest) := by
  have sized : request.headers.Sized := Qpack.Headers.sized_of_encode (Nat.lt_trans short (by decide))
  have section_decoded := Qpack.Headers.decode_encode_of_valid (headers_valid lawful valid) sized iteration
  obtain ⟨run, frame, typ, payload⟩ := run_of_encodeHeadersFrame short
  have body : headersBody (ofHeaders url.toUrlCrate http iterate) ⟨run.frame.typ⟩ run.frame.payload =
      .ok request := by
    rw [typ, payload, headersBody, if_neg (by simp), section_decoded]
    exact ofHeaders_headers lawful valid connects iterate
  rw [encode, frame, (frameDecoder iterate).run run rest, body]
  rfl

end

/-- The URL `https://example.com:4433/chat?room=alpha`. -/
def roomUrls : ClientUrlCrate where
  Url := Unit
  ParseError := Unit
  parse text := if text = "https://example.com:4433/chat?room=alpha" then .ok () else .error ()
  username _ := ""
  password _ := none
  fragment _ := none
  scheme _ := "https"
  authority _ := "example.com:4433"
  path _ := "/chat"
  query _ := some "room=alpha"
  host _ := some "example.com"
  cannotBeABase _ := false

theorem roomUrls_text : roomUrls.text () = "https://example.com:4433/chat?room=alpha" := by
  decide +kernel

theorem roomUrls_lawful : roomUrls.Lawful where
  printable target _ := by
    cases target
    decide +kernel
  parse_text target _ := by
    cases target
    rw [roomUrls_text]
    rfl

def roomRequest : ConnectRequest roomUrls.toUrlCrate where
  url := ()

/-- A hash map that yields its fields in another order than they were set. -/
def roomIteration : roomRequest.headers.Iteration where
  order := [⟨":path", "/chat?room=alpha"⟩, ⟨":method", "CONNECT"⟩, ⟨":protocol", "webtransport-h3"⟩,
    ⟨":authority", "example.com:4433"⟩, ⟨":scheme", "https"⟩]
  entries := by decide +kernel

theorem decode_encode_url_room :
    decode roomUrls.toUrlCrate sampleMethods
        (fun headers => ⟨headers.fields.entries.toList, headers.fields.entries.coe_toList⟩)
        (roomRequest.encode roomIteration ++ [0x00]) = .ok (roomRequest, [0x00]) :=
  decode_encode_url roomUrls_lawful rfl (by decide +kernel) (by decide +kernel) _ [0x00]

end ConnectRequest

end Webtrans.Proto
