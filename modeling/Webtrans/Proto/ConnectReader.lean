import Webtrans.Proto.Connect
import Webtrans.Proto.RecordReader

namespace Webtrans.Proto

open Webtrans.Data

/-! CONNECT responses, and CONNECT messages read from a stream
(`webtrans-proto/src/connect.rs`). -/

variable {url : UrlCrate} {http : HttpCrate}

def maxConnectFrameSize : Nat := 64 * 1024

structure ConnectResponse (http : HttpCrate) where
  status : http.StatusCode

namespace ConnectResponse

def ofHeaders (url : UrlCrate) (http : HttpCrate) (iterate : ∀ headers : Qpack.Headers, headers.Iteration)
    (headers : Qpack.Headers) : Except (ConnectError url http) (ConnectResponse http) :=
  match headers.validatePseudoHeaders (iterate headers) [":status"] with
  | .error error => .error (.qpackError error)
  | .ok () =>
      match headers.get ":status" with
      | none => .error (.wrongStatus none)
      | some status =>
          match http.fromStr status with
          | none => .error .invalidStatus
          | some status => .ok { status }

def decode (url : UrlCrate) (http : HttpCrate) (iterate : ∀ headers : Qpack.Headers, headers.Iteration) :
    Parser (ConnectError url http) (ConnectResponse http) := fun buf =>
  match Frame.read buf with
  | .error _ => .error .unexpectedEnd
  | .ok ((typ, data), buf) =>
      if typ ≠ Frame.headers then .error (.unexpectedFrame typ)
      else
        match Qpack.Headers.decode data with
        | .error error => .error (.qpackError error)
        | .ok (headers, _) =>
            match ofHeaders url http iterate headers with
            | .error error => .error error
            | .ok response => .ok (response, buf)

end ConnectResponse

def connectErrors (url : UrlCrate) (http : HttpCrate) : RecordErrors (ConnectError url http) where
  unexpectedEnd := .unexpectedEnd
  messageTooLong := .messageTooLong
  io := .io

/-- The source's `read_frame`. -/
def readConnectFrame (url : UrlCrate) (http : HttpCrate) (stream : ByteStream IoError) :
    Read IoError (ConnectError url http) (List UInt8) :=
  readShortest (connectErrors url http) maxConnectFrameSize stream

def ConnectRequest.read (url : UrlCrate) (http : HttpCrate)
    (iterate : ∀ headers : Qpack.Headers, headers.Iteration) (stream : ByteStream IoError) :
    Read IoError (ConnectError url http) (ConnectRequest url) :=
  decodeRead (readConnectFrame url http stream) (ConnectRequest.decode url http iterate)

def ConnectResponse.read (url : UrlCrate) (http : HttpCrate)
    (iterate : ∀ headers : Qpack.Headers, headers.Iteration) (stream : ByteStream IoError) :
    Read IoError (ConnectError url http) (ConnectResponse http) :=
  decodeRead (readConnectFrame url http stream) (ConnectResponse.decode url http iterate)

/-- A pseudo-header of the map that is not among the allowed ones. -/
def Disallowed (headers : Qpack.Headers) (allowed : List String) (name : String) : Prop :=
  name ∈ headers.fields ∧ Qpack.isPseudo name = true ∧ name ∉ allowed

theorem validatePseudoHeaders_cases (headers : Qpack.Headers) (left right : headers.Iteration)
    (allowed : List String) :
    (headers.validatePseudoHeaders left allowed = .ok () ∧
      headers.validatePseudoHeaders right allowed = .ok ()) ∨
    ∃ leftName rightName, Disallowed headers allowed leftName ∧ Disallowed headers allowed rightName ∧
      headers.validatePseudoHeaders left allowed = .error (.invalidPseudoHeader leftName) ∧
      headers.validatePseudoHeaders right allowed = .error (.invalidPseudoHeader rightName) := by
  have checked : ∀ iteration : headers.Iteration,
      ((∀ name, ¬ Disallowed headers allowed name) ∧
        headers.validatePseudoHeaders iteration allowed = .ok ()) ∨
      ∃ name, Disallowed headers allowed name ∧
        headers.validatePseudoHeaders iteration allowed = .error (.invalidPseudoHeader name) := by
    intro iteration
    rw [Qpack.Headers.validatePseudoHeaders]
    split
    next field found =>
      have present := lookup_of_entries iteration.entries (List.mem_of_find?_eq_some found)
      have invalid := List.find?_some found
      rw [Bool.and_eq_true, Bool.not_eq_true', List.contains_eq_mem, decide_eq_false_iff_not] at invalid
      exact .inr ⟨field.1, ⟨Finmap.mem_iff.mpr ⟨_, present⟩, invalid⟩, rfl⟩
    next missing =>
      refine .inl ⟨?_, rfl⟩
      intro name disallowed
      obtain ⟨present, pseudo, unlisted⟩ := disallowed
      obtain ⟨value, found⟩ := Finmap.mem_iff.mp present
      have member : (⟨name, value⟩ : Qpack.Field) ∈ iteration.order := by
        rw [Finmap.lookup_eq_some_iff, ← iteration.entries] at found
        exact Multiset.mem_coe.mp found
      have valid := List.find?_eq_none.mp missing _ member
      simp [pseudo, unlisted] at valid
  obtain ⟨none, leftOk⟩ | ⟨leftName, leftInvalid, leftError⟩ := checked left
  · obtain ⟨_, rightOk⟩ | ⟨rightName, rightInvalid, _⟩ := checked right
    · exact .inl ⟨leftOk, rightOk⟩
    · exact absurd rightInvalid (none rightName)
  · obtain ⟨none, _⟩ | ⟨rightName, rightInvalid, rightError⟩ := checked right
    · exact absurd leftInvalid (none leftName)
    · exact .inr ⟨leftName, rightName, leftInvalid, rightInvalid, leftError, rightError⟩

/-- The check of the pseudo-headers comes first, and nothing behind it depends
on the order of the map. -/
structure ChecksFirst {α : Type} (allowed : List String)
    (ofHeaders : (∀ headers : Qpack.Headers, headers.Iteration) → Qpack.Headers →
      Except (ConnectError url http) α) : Prop where
  congr : ∀ left right headers, headers.validatePseudoHeaders (left headers) allowed =
    headers.validatePseudoHeaders (right headers) allowed → ofHeaders left headers = ofHeaders right headers
  invalid : ∀ iterate headers error, headers.validatePseudoHeaders (iterate headers) allowed = .error error →
    ofHeaders iterate headers = .error (.qpackError error)

def requestPseudoHeaders : List String :=
  [":method", ":scheme", ":authority", ":path", ":protocol"]

def responsePseudoHeaders : List String :=
  [":status"]

theorem ConnectRequest.checksFirst :
    ChecksFirst requestPseudoHeaders (ConnectRequest.ofHeaders url http) := by
  constructor
  · intro left right headers same
    rw [requestPseudoHeaders] at same
    rw [ofHeaders, ofHeaders, same]
  · intro iterate headers error failed
    rw [requestPseudoHeaders] at failed
    rw [ofHeaders, failed]

theorem ConnectResponse.checksFirst :
    ChecksFirst responsePseudoHeaders (ConnectResponse.ofHeaders url http) := by
  constructor
  · intro left right headers same
    rw [responsePseudoHeaders] at same
    rw [ofHeaders, ofHeaders, same]
  · intro iterate headers error failed
    rw [responsePseudoHeaders] at failed
    rw [ofHeaders, failed]

/-- What the decoder of a CONNECT message makes of a frame. -/
def headersBody {α : Type} (ofHeaders : Qpack.Headers → Except (ConnectError url http) α) (typ : Frame)
    (data : List UInt8) : Except (ConnectError url http) α :=
  if typ ≠ Frame.headers then .error (.unexpectedFrame typ)
  else
    match Qpack.Headers.decode data with
    | .error error => .error (.qpackError error)
    | .ok (headers, _) => ofHeaders headers

theorem ConnectRequest.decode_andThen (iterate : ∀ headers : Qpack.Headers, headers.Iteration) :
    decode url http iterate = Parser.andThen Frame.read .unexpectedEnd fun frame =>
      Parser.always (headersBody (ofHeaders url http iterate) frame.1 frame.2) := by
  funext input
  rw [decode, Parser.andThen]
  cases Frame.read input with
  | error error => rfl
  | ok result =>
      obtain ⟨⟨typ, data⟩, rest⟩ := result
      dsimp only
      rw [Parser.always, headersBody]
      split
      · rfl
      · cases Qpack.Headers.decode data with
        | error error => rfl
        | ok result =>
            dsimp only
            cases ofHeaders url http iterate result.1 <;> rfl

theorem ConnectResponse.decode_andThen (iterate : ∀ headers : Qpack.Headers, headers.Iteration) :
    decode url http iterate = Parser.andThen Frame.read .unexpectedEnd fun frame =>
      Parser.always (headersBody (ofHeaders url http iterate) frame.1 frame.2) := by
  funext input
  rw [decode, Parser.andThen]
  cases Frame.read input with
  | error error => rfl
  | ok result =>
      obtain ⟨⟨typ, data⟩, rest⟩ := result
      dsimp only
      rw [Parser.always, headersBody]
      split
      · rfl
      · cases Qpack.Headers.decode data with
        | error error => rfl
        | ok result =>
            dsimp only
            cases ofHeaders url http iterate result.1 <;> rfl

theorem ConnectRequest.frameDecoder (iterate : ∀ headers : Qpack.Headers, headers.Iteration) :
    FrameDecoder (decode url http iterate) (headersBody (ofHeaders url http iterate)) :=
  .of_andThen (decode_andThen iterate)

theorem ConnectResponse.frameDecoder (iterate : ∀ headers : Qpack.Headers, headers.Iteration) :
    FrameDecoder (decode url http iterate) (headersBody (ofHeaders url http iterate)) :=
  .of_andThen (decode_andThen iterate)

/-- The errors are equal, or the section has several pseudo-headers that are
not allowed and each error names one. -/
def SameUpToOrder (allowed : List String) (buf : List UInt8) (error bufferError : ConnectError url http) :
    Prop :=
  error = bufferError ∨
    ∃ data rest headers unread name bufferName, Frame.read buf = .ok ((Frame.headers, data), rest) ∧
      Qpack.Headers.decode data = .ok (headers, unread) ∧ name ≠ bufferName ∧
      Disallowed headers allowed name ∧ Disallowed headers allowed bufferName ∧
      error = .qpackError (.invalidPseudoHeader name) ∧
      bufferError = .qpackError (.invalidPseudoHeader bufferName)

section Orders

variable {α : Type} {allowed : List String}
  {ofHeaders : (∀ headers : Qpack.Headers, headers.Iteration) → Qpack.Headers →
    Except (ConnectError url http) α}
  (left right : ∀ headers : Qpack.Headers, headers.Iteration)

theorem ChecksFirst.cases (checks : ChecksFirst allowed ofHeaders) (headers : Qpack.Headers) :
    ofHeaders left headers = ofHeaders right headers ∨
    ∃ name bufferName, name ≠ bufferName ∧ Disallowed headers allowed name ∧
      Disallowed headers allowed bufferName ∧
      ofHeaders left headers = .error (.qpackError (.invalidPseudoHeader name)) ∧
      ofHeaders right headers = .error (.qpackError (.invalidPseudoHeader bufferName)) := by
  obtain ⟨leftOk, rightOk⟩ | ⟨name, bufferName, invalid, bufferInvalid, leftError, rightError⟩ :=
    validatePseudoHeaders_cases headers (left headers) (right headers) allowed
  · exact .inl (checks.congr left right headers (leftOk.trans rightOk.symm))
  · by_cases same : name = bufferName
    · subst same
      exact .inl (checks.congr left right headers (leftError.trans rightError.symm))
    · exact .inr ⟨name, bufferName, same, invalid, bufferInvalid, checks.invalid left headers _ leftError,
        checks.invalid right headers _ rightError⟩

theorem ChecksFirst.accepts (checks : ChecksFirst allowed ofHeaders) (typ : Frame) (payload : List UInt8)
    (x : α) :
    headersBody (ofHeaders left) typ payload = .ok x ↔ headersBody (ofHeaders right) typ payload = .ok x := by
  rw [headersBody, headersBody]
  split
  · rfl
  · cases Qpack.Headers.decode payload with
    | error error => rfl
    | ok result =>
        obtain same | ⟨_, _, _, _, _, leftError, rightError⟩ := checks.cases left right result.1
        · dsimp only
          rw [same]
        · dsimp only
          rw [leftError, rightError]
          exact iff_of_false (by intro accepted; cases accepted) (by intro accepted; cases accepted)

theorem ChecksFirst.errors (checks : ChecksFirst allowed ofHeaders) (run : FrameRun) (rest : List UInt8)
    (error bufferError : ConnectError url http)
    (failed : headersBody (ofHeaders left) ⟨run.frame.typ⟩ run.frame.payload = .error error)
    (bufferFailed : headersBody (ofHeaders right) ⟨run.frame.typ⟩ run.frame.payload = .error bufferError) :
    SameUpToOrder allowed (run.bytes ++ rest) error bufferError := by
  rw [headersBody] at failed bufferFailed
  by_cases typ : (⟨run.frame.typ⟩ : Frame) = Frame.headers
  · rw [if_neg (not_not.mpr typ)] at failed bufferFailed
    cases decoded : Qpack.Headers.decode run.frame.payload with
    | error qpackError =>
        rw [decoded] at failed bufferFailed
        cases failed
        cases bufferFailed
        exact .inl rfl
    | ok result =>
        obtain ⟨headers, unread⟩ := result
        rw [decoded] at failed bufferFailed
        dsimp only at failed bufferFailed
        obtain same | ⟨name, bufferName, differ, invalid, bufferInvalid, leftError, rightError⟩ :=
          checks.cases left right headers
        · rw [same, bufferFailed] at failed
          cases failed
          exact .inl rfl
        · rw [leftError] at failed
          rw [rightError] at bufferFailed
          cases failed
          cases bufferFailed
          refine .inr ⟨_, rest, headers, unread, name, bufferName, ?_, decoded, differ, invalid,
            bufferInvalid, rfl, rfl⟩
          rw [Frame.read_run, typ]
  · rw [if_pos typ] at failed bufferFailed
    cases failed
    cases bufferFailed
    exact .inl rfl

end Orders

end Webtrans.Proto
