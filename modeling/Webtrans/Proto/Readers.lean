import Webtrans.Proto.ConnectReader
import Webtrans.Proto.Settings.Decode

namespace Webtrans.Proto

open Webtrans.Data

/-! The stream readers of the messages against their buffer decoders. -/

def settingsErrors : RecordErrors SettingsError where
  unexpectedEnd := .unexpectedEnd
  messageTooLong := .messageTooLong
  io := .io

def capsuleErrors : RecordErrors CapsuleError where
  unexpectedEnd := .unexpectedEnd
  messageTooLong := .messageTooLong
  io := .io

/-- Read and decode one SETTINGS exchange from an async stream. -/
def Settings.read (stream : ByteStream IoError) : Read IoError SettingsError Settings :=
  (VarInt.read .earlyEof stream).bind (fun _ => .unexpectedEnd) fun streamType stream =>
    let streamType : UniStream := ⟨streamType⟩
    if streamType ≠ UniStream.control then .failed (.unexpectedStreamType streamType)
    else
      decodeRead (readShortest settingsErrors maxSettingsFrameSize stream) fun frame =>
        Settings.decode (streamType.encode ++ frame)

/-- Read and decode one capsule from an async stream. -/
def Capsule.read (stream : ByteStream IoError) : Read IoError CapsuleError Capsule :=
  decodeRead ((readRecord capsuleErrors maxClosePayloadSize stream).bind id (recordBytes capsuleErrors))
    Capsule.decode

namespace Settings

variable {stream after : ByteStream IoError}

/-- What the decoder makes of a frame behind the control stream type. -/
def decodeBody (typ : Frame) (data : List UInt8) : Except SettingsError Settings :=
  if typ ≠ Frame.settings then .error (.unexpectedFrame typ)
  else decodePair.foldItems decodePair_shrinks accept ∅ data

def decodeBehind : Parser SettingsError Settings := fun buf =>
  decode (UniStream.control.encode ++ buf)

theorem decode_behind {buf rest : List UInt8} {typ : VarInt} (typDecoded : VarInt.decode buf = .ok (typ, rest)) :
    decode buf = if (⟨typ⟩ : UniStream) ≠ UniStream.control then .error (.unexpectedStreamType ⟨typ⟩)
      else decodeBehind rest := by
  have control : UniStream.decode (UniStream.control.encode ++ rest) = .ok (UniStream.control, rest) :=
    UniStream.decode_reads (VarInt.decode_reads_encode _) rest
  have found : UniStream.decode buf = .ok (⟨typ⟩, rest) := by
    rw [UniStream.decode, typDecoded]
  rw [decodeBehind, decode, decode, found, control]
  dsimp only
  by_cases same : (⟨typ⟩ : UniStream) = UniStream.control
  · rw [same]
    simp only [ne_eq, not_true_eq_false, if_false]
  · rw [if_pos same, if_pos same]

theorem decodeBehind_andThen : decodeBehind = Parser.andThen Frame.read .unexpectedEnd fun frame =>
    Parser.always (decodeBody frame.1 frame.2) := by
  funext buf
  have control : UniStream.decode (UniStream.control.encode ++ buf) = .ok (UniStream.control, buf) :=
    UniStream.decode_reads (VarInt.decode_reads_encode _) buf
  rw [decodeBehind, decode, control, Parser.andThen]
  dsimp only
  rw [if_neg (by simp)]
  cases Frame.read buf with
  | error error => rfl
  | ok result =>
      obtain ⟨⟨typ, data⟩, rest⟩ := result
      dsimp only
      rw [Parser.always, decodeBody]
      split
      · rfl
      · cases decodePair.foldItems decodePair_shrinks accept ∅ data <;> rfl

theorem frameDecoder : FrameDecoder decodeBehind decodeBody :=
  .of_andThen decodeBehind_andThen

/-- The stream type in any of its encodings, and the frames behind it. -/
structure Exchange where
  typ : VarInt
  typBytes : List UInt8
  reads : VarInt.decode.Reads typBytes typ
  frames : FrameRun

namespace Exchange

def bytes (exchange : Exchange) : List UInt8 :=
  exchange.typBytes ++ exchange.frames.bytes

def Fits (exchange : Exchange) : Prop :=
  exchange.frames.Within maxSettingsFrameSize

def result (exchange : Exchange) : Except SettingsError Settings :=
  if (⟨exchange.typ⟩ : UniStream) ≠ UniStream.control then .error (.unexpectedStreamType ⟨exchange.typ⟩)
  else decodeBody ⟨exchange.frames.frame.typ⟩ exchange.frames.frame.payload

theorem decode_typ (exchange : Exchange) (rest : List UInt8) :
    VarInt.decode (exchange.bytes ++ rest) = .ok (exchange.typ, exchange.frames.bytes ++ rest) := by
  rw [bytes, List.append_assoc]
  exact exchange.reads _

end Exchange

theorem decode_exchange (exchange : Exchange) (rest : List UInt8) :
    decode (exchange.bytes ++ rest) = exchange.result.map fun settings => (settings, rest) := by
  rw [decode_behind (exchange.decode_typ rest), Exchange.result, frameDecoder.run]
  split <;> rfl

theorem read_exchange {exchange : Exchange} {rest : List UInt8} (split : stream.bytes = exchange.bytes ++ rest)
    (fits : exchange.Fits) :
    read stream =
      match exchange.result with
      | .error error => .failed error
      | .ok settings => .done settings (stream.advance exchange.bytes.length) := by
  have typSplit : stream.bytes = exchange.typBytes ++ (exchange.frames.bytes ++ rest) := by
    rw [split, Exchange.bytes, List.append_assoc]
  have behind : (stream.advance exchange.typBytes.length).bytes = exchange.frames.bytes ++ rest := by
    rw [ByteStream.bytes_advance, typSplit, List.drop_left]
  rw [read, VarInt.read_reads .earlyEof exchange.reads typSplit, Read.bind_done, Exchange.result]
  by_cases control : (⟨exchange.typ⟩ : UniStream) = UniStream.control
  · have framed := @readFramed_run _ settingsErrors _ _ _ _ _ frameDecoder _ _ behind fits
    rw [ByteStream.advance_advance, ← List.length_append] at framed
    simp only [control, ne_eq, not_true_eq_false, if_false]
    cases found : decodeBody ⟨exchange.frames.frame.typ⟩ exchange.frames.frame.payload with
    | error error =>
        rw [found] at framed
        exact framed
    | ok settings =>
        rw [found] at framed
        exact framed
  · rw [if_pos control, if_pos control]

/-- Every frame header behind the stream type, up to that of the first frame
that is not GREASE, declares a length within the limit. -/
def Within (buf : List UInt8) : Prop :=
  ∀ typ rest, VarInt.decode buf = .ok (typ, rest) → HeadersWithin maxSettingsFrameSize rest

/-- The stream type and complete frames within the limit. -/
def Complete (buf : List UInt8) : Prop :=
  ∃ typ rest, VarInt.decode buf = .ok (typ, rest) ∧ CompleteFrames maxSettingsFrameSize rest

theorem complete_iff (buf : List UInt8) :
    Complete buf ↔
      ∃ (exchange : Exchange) (rest : List UInt8), buf = exchange.bytes ++ rest ∧ exchange.Fits := by
  constructor
  · intro complete
    obtain ⟨typ, _, typDecoded, run, rest, rfl, within⟩ := complete
    obtain ⟨bytes, rfl, reads⟩ := VarInt.decode_local typDecoded
    exact ⟨⟨typ, bytes, reads, run⟩, rest, (List.append_assoc ..).symm, within⟩
  · intro taken
    obtain ⟨exchange, rest, rfl, fits⟩ := taken
    exact ⟨_, _, exchange.decode_typ rest, exchange.frames, rest, rfl, fits⟩

theorem unitReader : UnitReader Exchange.bytes Exchange.Fits Exchange.result read where
  ok split fits found := by rw [read_exchange split fits, found]
  error split fits found := by rw [read_exchange split fits, found]
  only completed := by
    obtain ⟨typ, _, typRead, completed⟩ := Read.bind_eq_done completed
    obtain ⟨bytes, _, reads, split, rfl⟩ := VarInt.reads_of_read typRead
    dsimp only at completed
    split at completed
    · cases completed
    · rename_i control
      rw [ne_eq, not_not] at control
      rw [control] at completed
      obtain ⟨run, rest, behind, within⟩ :=
        (frameDecoder.unitReader settingsErrors maxSettingsFrameSize).only completed
      rw [ByteStream.bytes_advance, split, List.drop_left] at behind
      refine ⟨⟨typ, bytes, reads, run⟩, rest, ?_, within⟩
      rw [split, behind, Exchange.bytes, List.append_assoc]

theorem unitDecoder : UnitDecoder Exchange.bytes Exchange.Fits Exchange.result decode Within where
  run rest _ := decode_exchange _ rest
  only {buf rest settings} decoded limited := by
    cases typDecoded : VarInt.decode buf with
    | error error =>
        rw [decode, UniStream.decode, typDecoded] at decoded
        cases decoded
    | ok result =>
        obtain ⟨typ, behind⟩ := result
        have within := limited typ behind typDecoded
        rw [decode_behind typDecoded] at decoded
        split at decoded
        · cases decoded
        · obtain ⟨run, rfl⟩ := frameDecoder.only decoded
          obtain ⟨bytes, rfl, reads⟩ := VarInt.decode_local typDecoded
          exact ⟨⟨typ, bytes, reads, run⟩, (List.append_assoc ..).symm,
            (headersWithin_run run _ rest).mp within⟩
  within {exchange} rest fits := by
    intro typ behind typDecoded
    rw [exchange.decode_typ rest] at typDecoded
    cases typDecoded
    exact (headersWithin_run exchange.frames _ rest).mpr fits

theorem read_agrees :
    ReaderAgrees read decode Within Complete fun _ error bufferError => error = bufferError := by
  have complete : Complete = _ := funext fun buf => propext (complete_iff buf)
  rw [complete]
  refine .of_units unitReader unitDecoder (fun _ _ => Iff.rfl) ?_
  intro exchange rest error bufferError failed bufferFailed
  exact Except.error.inj (failed.symm.trans bufferFailed)

end Settings

namespace Capsule

/-- The capsule's own header declares a length within the limit. -/
def Within (buf : List UInt8) : Prop :=
  ∀ typ afterType length view, VarInt.decode buf = .ok (typ, afterType) →
    VarInt.decode afterType = .ok (length, view) → length.intoInner ≤ maxClosePayloadSize

def Complete (buf : List UInt8) : Prop :=
  ∃ (tlv : Tlv) (rest : List UInt8), buf = tlv.bytes ++ rest ∧ tlv.payload.length ≤ maxClosePayloadSize

theorem read_tlv {stream : ByteStream IoError} {tlv : Tlv} {rest : List UInt8}
    (split : stream.bytes = tlv.bytes ++ rest) (within : tlv.payload.length ≤ maxClosePayloadSize) :
    read stream =
      match decodePayload tlv.typ tlv.payload with
      | .error error => .failed error
      | .ok capsule => .done capsule (stream.advance tlv.bytes.length) := by
  obtain ⟨bound, shortest⟩ := recordBytes_tlv capsuleErrors tlv (stream.advance tlv.bytes.length)
  have decoded := decode_bytes (Tlv.shortest tlv.typ tlv.payload bound) []
  have payload : (Tlv.shortest tlv.typ tlv.payload bound).payload = tlv.payload := rfl
  have typ : (Tlv.shortest tlv.typ tlv.payload bound).typ = tlv.typ := rfl
  rw [List.append_nil, payload, typ, if_neg (by omega)] at decoded
  rw [read, readRecord_tlv split within, Read.bind_done, shortest, decodeRead_done, decoded]
  cases decodePayload tlv.typ tlv.payload <;> rfl

theorem decode_tlv {buf rest : List UInt8} {tlv : Tlv} (split : buf = tlv.bytes ++ rest)
    (within : tlv.payload.length ≤ maxClosePayloadSize) :
    decode buf = (decodePayload tlv.typ tlv.payload).map fun capsule => (capsule, rest) := by
  rw [split, decode_bytes, if_neg (by omega)]

/-- What is decoded is a complete capsule within the limit. -/
theorem complete_of_decode {buf rest : List UInt8} {capsule : Capsule}
    (decoded : decode buf = .ok (capsule, rest)) :
    ∃ tlv : Tlv, buf = tlv.bytes ++ rest ∧ tlv.payload.length ≤ maxClosePayloadSize := by
  obtain ⟨tlv, split, _, payload, _, fits⟩ := record_of_decode decoded
  exact ⟨tlv, split, payload ▸ fits⟩

theorem within_tlv {tlv : Tlv} (fits : tlv.payload.length ≤ maxClosePayloadSize) (rest : List UInt8) :
    Within (tlv.bytes ++ rest) := by
  intro typ afterType length view typDecoded lengthDecoded
  rw [tlv.decode_typ] at typDecoded
  cases typDecoded
  rw [tlv.decode_length] at lengthDecoded
  cases lengthDecoded
  rw [tlv.length_eq]
  exact fits

theorem unitReader :
    UnitReader Tlv.bytes (fun tlv => tlv.payload.length ≤ maxClosePayloadSize)
      (fun tlv => decodePayload tlv.typ tlv.payload) read where
  ok split within found := by rw [read_tlv split within, found]
  error split within found := by rw [read_tlv split within, found]
  only completed := by
    obtain ⟨_, _, bytesRead, _⟩ := Read.bind_eq_done completed
    obtain ⟨⟨typ, payload⟩, _, record, _⟩ := Read.bind_eq_done bytesRead
    obtain ⟨tlv, rest, _, _, split, within, _⟩ := tlv_of_readRecord record
    exact ⟨tlv, rest, split, within⟩

theorem unitDecoder :
    UnitDecoder Tlv.bytes (fun tlv => tlv.payload.length ≤ maxClosePayloadSize)
      (fun tlv => decodePayload tlv.typ tlv.payload) decode Within where
  run _ within := decode_tlv rfl within
  only decoded _ := complete_of_decode decoded
  within rest within := within_tlv within rest

theorem read_agrees :
    ReaderAgrees read decode Within Complete fun _ error bufferError => error = bufferError := by
  refine .of_units unitReader unitDecoder (fun _ _ => Iff.rfl) ?_
  intro tlv rest error bufferError failed bufferFailed
  exact Except.error.inj (failed.symm.trans bufferFailed)

end Capsule

section Connect

variable (url : UrlCrate) (http : HttpCrate) (iterate bufferIterate : ∀ headers : Qpack.Headers, headers.Iteration)

theorem ConnectRequest.read_agrees :
    ReaderAgrees (ConnectRequest.read url http iterate) (ConnectRequest.decode url http bufferIterate)
      (HeadersWithin maxConnectFrameSize) (CompleteFrames maxConnectFrameSize)
      (SameUpToOrder requestPseudoHeaders) :=
  readFramed_agrees (connectErrors url http) maxConnectFrameSize (ConnectRequest.frameDecoder iterate)
    (ConnectRequest.frameDecoder bufferIterate) (ConnectRequest.checksFirst.accepts iterate bufferIterate)
    (ConnectRequest.checksFirst.errors iterate bufferIterate)

theorem ConnectResponse.read_agrees :
    ReaderAgrees (ConnectResponse.read url http iterate) (ConnectResponse.decode url http bufferIterate)
      (HeadersWithin maxConnectFrameSize) (CompleteFrames maxConnectFrameSize)
      (SameUpToOrder responsePseudoHeaders) :=
  readFramed_agrees (connectErrors url http) maxConnectFrameSize (ConnectResponse.frameDecoder iterate)
    (ConnectResponse.frameDecoder bufferIterate) (ConnectResponse.checksFirst.accepts iterate bufferIterate)
    (ConnectResponse.checksFirst.errors iterate bufferIterate)

variable {url http iterate} {α : Type} {decode : Parser (ConnectError url http) α}
  {body : Frame → List UInt8 → Except (ConnectError url http) α}

/-- Where both yield the header map in one order the errors are equal. -/
theorem connect_sameOrder (decoder : FrameDecoder decode body) :
    ReaderAgrees (readFramed (connectErrors url http) maxConnectFrameSize decode) decode
      (HeadersWithin maxConnectFrameSize) (CompleteFrames maxConnectFrameSize)
      fun _ error bufferError => error = bufferError := by
  refine readFramed_agrees (connectErrors url http) maxConnectFrameSize decoder decoder
    (fun _ _ _ => Iff.rfl) ?_
  intro run rest error bufferError failed bufferFailed
  exact Except.error.inj (failed.symm.trans bufferFailed)

end Connect

/-- Each stream reader accepts what its buffer decoder accepts, but for headers
beyond its limit, from the same bytes.  On complete input they report the same
error, up to the pseudo-header that is named when several are not allowed. -/
theorem readers_agree (url : UrlCrate) (http : HttpCrate) :
    ReaderAgrees Settings.read Settings.decode Settings.Within Settings.Complete
      (fun _ error bufferError => error = bufferError) ∧
    ReaderAgrees Capsule.read Capsule.decode Capsule.Within Capsule.Complete
      (fun _ error bufferError => error = bufferError) ∧
    (∀ iterate bufferIterate,
      ReaderAgrees (ConnectRequest.read url http iterate) (ConnectRequest.decode url http bufferIterate)
        (HeadersWithin maxConnectFrameSize) (CompleteFrames maxConnectFrameSize)
        (SameUpToOrder requestPseudoHeaders) ∧
      ReaderAgrees (ConnectResponse.read url http iterate) (ConnectResponse.decode url http bufferIterate)
        (HeadersWithin maxConnectFrameSize) (CompleteFrames maxConnectFrameSize)
        (SameUpToOrder responsePseudoHeaders)) ∧
    ∀ iterate,
      ReaderAgrees (ConnectRequest.read url http iterate) (ConnectRequest.decode url http iterate)
        (HeadersWithin maxConnectFrameSize) (CompleteFrames maxConnectFrameSize)
        (fun _ error bufferError => error = bufferError) ∧
      ReaderAgrees (ConnectResponse.read url http iterate) (ConnectResponse.decode url http iterate)
        (HeadersWithin maxConnectFrameSize) (CompleteFrames maxConnectFrameSize)
        fun _ error bufferError => error = bufferError :=
  ⟨Settings.read_agrees, Capsule.read_agrees,
    fun iterate bufferIterate => ⟨ConnectRequest.read_agrees url http iterate bufferIterate,
      ConnectResponse.read_agrees url http iterate bufferIterate⟩,
    fun iterate => ⟨connect_sameOrder (ConnectRequest.frameDecoder iterate),
      connect_sameOrder (ConnectResponse.frameDecoder iterate)⟩⟩

/-- A section with the pseudo-headers `:a` and `:b`. -/
def pairSection : List UInt8 :=
  [0x00, 0x00] ++ ([0x22] ++ asBytes ":a" ++ [0x00]) ++ ([0x22] ++ asBytes ":b" ++ [0x00])

def pairHeaders : Qpack.Headers where
  fields := [⟨":b", ""⟩, ⟨":a", ""⟩].toFinmap

theorem pairHeaders_entries :
    pairHeaders.fields.entries = (([⟨":b", ""⟩, ⟨":a", ""⟩] : List Qpack.Field) : Multiset Qpack.Field) := by
  decide +kernel

def pairForwards : pairHeaders.Iteration where
  order := [⟨":a", ""⟩, ⟨":b", ""⟩]
  entries := pairHeaders_entries ▸ Multiset.coe_eq_coe.mpr (List.Perm.swap _ _ [])

def pairBackwards : pairHeaders.Iteration where
  order := [⟨":b", ""⟩, ⟨":a", ""⟩]
  entries := pairHeaders_entries.symm

/-- An order for every map that is the given one on the sample. -/
noncomputable def iterateWith (pair : pairHeaders.Iteration) (headers : Qpack.Headers) : headers.Iteration :=
  if same : headers = pairHeaders then same ▸ pair
  else ⟨headers.fields.entries.toList, headers.fields.entries.coe_toList⟩

def pairFrame : FrameRun :=
  FrameRun.only (Tlv.shortest Frame.headers.typ pairSection (by decide)) (by decide)

theorem pairFrame_rejected (url : UrlCrate) (http : HttpCrate) (pair : pairHeaders.Iteration)
    (name : String) (found : pairHeaders.validatePseudoHeaders pair requestPseudoHeaders =
      .error (.invalidPseudoHeader name)) (rest : List UInt8) :
    ConnectRequest.decode url http (iterateWith pair) (pairFrame.bytes ++ rest) =
      .error (.qpackError (.invalidPseudoHeader name)) := by
  have headers : Qpack.Headers.decode pairSection = .ok (pairHeaders, []) := by
    decide +kernel
  have chosen : iterateWith pair pairHeaders = pair := dif_pos rfl
  have body : headersBody (ConnectRequest.ofHeaders url http (iterateWith pair)) Frame.headers pairSection =
      .error (.qpackError (.invalidPseudoHeader name)) := by
    rw [headersBody, if_neg (by simp), headers]
    exact ConnectRequest.checksFirst.invalid (iterateWith pair) pairHeaders _ (by rw [chosen]; exact found)
  exact ((ConnectRequest.frameDecoder (iterateWith pair)).run pairFrame rest).trans (congrArg _ body)

/-- Two maps of one section need not yield it in the same order. -/
theorem readers_agree_orders :
    ¬ ∀ (url : UrlCrate) (http : HttpCrate)
      (iterate bufferIterate : ∀ headers : Qpack.Headers, headers.Iteration),
      ReaderAgrees (ConnectRequest.read url http iterate) (ConnectRequest.decode url http bufferIterate)
        (HeadersWithin maxConnectFrameSize) (CompleteFrames maxConnectFrameSize)
        fun _ error bufferError => error = bufferError := by
  intro agree
  let url := ConnectRequest.sampleUrls
  let http := ConnectRequest.sampleMethods
  let stream : ByteStream IoError := ⟨[pairFrame.bytes ++ []], .finished⟩
  have bytes : stream.bytes = pairFrame.bytes ++ [] := List.append_nil _
  have forwards := pairFrame_rejected url http pairForwards ":a" (by decide +kernel) []
  have backwards := pairFrame_rejected url http pairBackwards ":b" (by decide +kernel) []
  have complete : CompleteFrames maxConnectFrameSize stream.bytes :=
    ⟨pairFrame, [], bytes, FrameRun.within_only.mpr (by decide +kernel)⟩
  rw [← bytes] at forwards backwards
  obtain ⟨error, failed, same⟩ := (agree url http (iterateWith pairForwards) (iterateWith pairForwards)).rejected
    stream _ complete forwards
  subst same
  obtain ⟨other, bufferFailed, same⟩ := (agree url http (iterateWith pairForwards)
    (iterateWith pairBackwards)).rejects stream _ complete failed
  cases backwards.symm.trans bufferFailed
  have names := Qpack.DecodeError.invalidPseudoHeader.inj (ConnectError.qpackError.inj same)
  exact absurd names (by decide)

end Webtrans.Proto
