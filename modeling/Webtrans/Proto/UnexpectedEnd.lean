import Webtrans.Data.Retry
import Webtrans.Proto.Readers

namespace Webtrans.Proto

open Webtrans.Data

/-! The buffer decoders of the messages on input that is cut short: callers
retry on `UnexpectedEnd` alone. -/

namespace VarInt

/-- Eight bytes always begin with a varint. -/
theorem decode_of_length {input : List UInt8} (enough : 8 ≤ input.length) :
    ∃ x rest, decode input = .ok (x, rest) := by
  cases input with
  | nil => exact absurd enough (by decide)
  | cons first tail =>
      have limit := following_le first
      rw [List.length_cons] at enough
      rw [decode_cons, if_neg (by omega)]
      exact ⟨_, _, rfl⟩

theorem decode_completable : decode.Completable := by
  intro input
  obtain ⟨x, rest, decoded⟩ := @decode_of_length (input ++ List.replicate 8 0) (by simp)
  exact ⟨_, x, rest, decoded⟩

/-- What is no varint yet is the front part of one. -/
theorem reads_of_error {input : List UInt8} {error : VarIntUnexpectedEnd} (failed : decode input = .error error) :
    ∃ more x, decode.Reads (input ++ more) x := by
  obtain ⟨more, x, rest, decoded⟩ := decode_completable input
  obtain ⟨bytes, split, reads⟩ := decode_local decoded
  rcases reads.on_prefix decode_local split with ⟨_, _, short⟩ | ⟨_, read, _, _⟩
  · obtain ⟨front, same, _⟩ | ⟨_, same, _⟩ := List.append_eq_append_iff.mp split
    · exact ⟨front, x, same ▸ reads⟩
    · have lengths := congrArg List.length same
      rw [List.length_append] at lengths
      omega
  · rw [failed] at read
    cases read

end VarInt

theorem UniStream.decode_local : UniStream.decode.Local := by
  intro input stream rest decoded
  rw [decode] at decoded
  cases typDecoded : VarInt.decode input with
  | error error =>
      rw [typDecoded] at decoded
      cases decoded
  | ok result =>
      obtain ⟨bytes, split, reads⟩ := VarInt.decode_local typDecoded
      rw [typDecoded] at decoded
      cases decoded
      exact ⟨bytes, split, decode_reads reads⟩

theorem UniStream.decode_completable : UniStream.decode.Completable := by
  intro input
  obtain ⟨more, typ, rest, decoded⟩ := VarInt.decode_completable input
  refine ⟨more, ⟨typ⟩, rest, ?_⟩
  rw [decode, decoded]

/-- A buffer begins with a record, or is the front part of one. -/
theorem Tlv.begins (input : List UInt8) :
    (∃ (tlv : Tlv) (rest : List UInt8), input = tlv.bytes ++ rest) ∨
      ∃ (more : List UInt8) (tlv : Tlv), input ++ more = tlv.bytes := by
  have filled : ∀ {typ length : VarInt} {typBytes lengthBytes : List UInt8} (view : List UInt8),
      VarInt.decode.Reads typBytes typ → VarInt.decode.Reads lengthBytes length →
      view.length ≤ length.intoInner →
      ∃ (more : List UInt8) (tlv : Tlv), typBytes ++ (lengthBytes ++ view) ++ more = tlv.bytes := by
    intro typ length typBytes lengthBytes view typReads lengthReads short
    refine ⟨List.replicate (length.intoInner - view.length) 0, ⟨typ,
      view ++ List.replicate (length.intoInner - view.length) 0, typBytes, length, lengthBytes, typReads,
      lengthReads, ?_⟩, ?_⟩
    · rw [List.length_append, List.length_replicate]
      omega
    · simp only [bytes, header, List.append_assoc]
  cases typDecoded : VarInt.decode input with
  | error error =>
      obtain ⟨more, typ, typReads⟩ := VarInt.reads_of_error typDecoded
      have empty : VarInt.decode.Reads (VarInt.fromU32 0).encode (VarInt.fromU32 0) :=
        VarInt.decode_reads_encode _
      obtain ⟨behind, tlv, bytes⟩ := filled [] typReads empty (Nat.zero_le _)
      exact .inr ⟨_, tlv, by rw [← bytes, List.append_assoc, List.append_assoc]⟩
  | ok result =>
      obtain ⟨typ, afterType⟩ := result
      obtain ⟨typBytes, rfl, typReads⟩ := VarInt.decode_local typDecoded
      cases lengthDecoded : VarInt.decode afterType with
      | error error =>
          obtain ⟨more, length, lengthReads⟩ := VarInt.reads_of_error lengthDecoded
          obtain ⟨behind, tlv, bytes⟩ := filled [] typReads lengthReads (Nat.zero_le _)
          exact .inr ⟨more ++ behind, tlv, by rw [← bytes]; simp only [List.append_assoc, List.append_nil]⟩
      | ok result =>
          obtain ⟨length, view⟩ := result
          by_cases enough : length.intoInner ≤ view.length
          · obtain ⟨tlv, _, _, _, split⟩ := Tlv.of_decode typDecoded lengthDecoded enough
            exact .inl ⟨tlv, _, split⟩
          · obtain ⟨lengthBytes, rfl, lengthReads⟩ := VarInt.decode_local lengthDecoded
            exact .inr (filled view typReads lengthReads (Nat.le_of_not_le enough))

namespace Frame

theorem read_local : Parser.Local Frame.read := by
  intro input frame rest read
  obtain ⟨typ, data⟩ := frame
  obtain ⟨run, rfl, rfl, split⟩ := run_of_read read
  exact ⟨run.bytes, split, read_run run⟩

def emptyData : FrameRun :=
  FrameRun.only (Tlv.shortest Frame.data.typ [] (by decide)) (by decide)

/-- Whatever has arrived, zeros finish it and an empty DATA frame follows. -/
theorem run_begins (input : List UInt8) :
    ∃ (more : List UInt8) (run : FrameRun) (rest : List UInt8), input ++ more = run.bytes ++ rest := by
  induction size : input.length using Nat.strong_induction_on generalizing input with
  | h size ih =>
      subst size
      rcases Tlv.begins input with ⟨tlv, rest, rfl⟩ | ⟨more, tlv, bytes⟩
      · cases ordinary : isGreaseValue tlv.typ.intoInner with
        | false => exact ⟨[], FrameRun.only tlv ordinary, rest, List.append_nil _⟩
        | true =>
            have shorter : rest.length < (tlv.bytes ++ rest).length := by
              have positive := tlv.header_length_pos
              rw [List.length_append, Tlv.bytes_length]
              omega
            obtain ⟨more, run, behind, split⟩ := ih _ shorter rest rfl
            refine ⟨more, run.skip tlv ordinary, behind, ?_⟩
            rw [FrameRun.bytes_skip, List.append_assoc, List.append_assoc, split]
      · cases ordinary : isGreaseValue tlv.typ.intoInner with
        | false => exact ⟨more, FrameRun.only tlv ordinary, [], bytes.trans (List.append_nil _).symm⟩
        | true =>
            refine ⟨more ++ emptyData.bytes, emptyData.skip tlv ordinary, [], ?_⟩
            rw [FrameRun.bytes_skip, ← List.append_assoc, bytes, List.append_nil]

theorem read_completable : Parser.Completable Frame.read := by
  intro input
  obtain ⟨more, run, rest, split⟩ := run_begins input
  refine ⟨more, (⟨run.frame.typ⟩, run.frame.payload), rest, ?_⟩
  rw [split, read_run]

end Frame

namespace Settings

theorem decodeBody_ne_unexpectedEnd (typ : Frame) (data : List UInt8) :
    decodeBody typ data ≠ .error .unexpectedEnd := by
  rw [decodeBody]
  split
  · intro failed
    cases failed
  · refine Parser.foldItems_ne_error ?_ ?_ ∅ data
    · intro input
      rw [decodePair]
      split
      · intro failed
        cases failed
      · split <;> intro failed <;> cases failed
    · intro settings entry
      rw [accept]
      split
      · intro failed
        cases failed
      · split
        · intro failed
          cases failed
        · split <;> intro failed <;> cases failed

theorem decode_andThen : decode =
    UniStream.decode.andThen .unexpectedEnd fun typ =>
      if typ ≠ UniStream.control then Parser.always (.error (.unexpectedStreamType typ)) else decodeBehind := by
  funext input
  cases typDecoded : VarInt.decode input with
  | error error => rw [decode, Parser.andThen, UniStream.decode, typDecoded]
  | ok result =>
      obtain ⟨typ, rest⟩ := result
      have found : UniStream.decode input = .ok (⟨typ⟩, rest) := by
        rw [UniStream.decode, typDecoded]
      rw [decode_behind typDecoded, Parser.andThen_ok found]
      split <;> rfl

theorem decode_retries :
    Parser.RetriesOn decode decode .unexpectedEnd fun _ error later => error = later := by
  rw [decode_andThen]
  refine Parser.RetriesOn.andThen_uniform UniStream.decode_local UniStream.decode_completable fun typ => ?_
  split
  · exact Parser.RetriesOn.always_same nofun
  · rw [decodeBehind_andThen]
    exact Parser.RetriesOn.andThen_uniform Frame.read_local Frame.read_completable fun frame =>
      Parser.RetriesOn.always_same (decodeBody_ne_unexpectedEnd frame.1 frame.2)

end Settings

section Connect

variable {url : UrlCrate} {http : HttpCrate}

theorem ConnectRequest.ofHeaders_ne_unexpectedEnd (iterate : ∀ headers : Qpack.Headers, headers.Iteration)
    (headers : Qpack.Headers) : ofHeaders url http iterate headers ≠ .error .unexpectedEnd := by
  rw [ofHeaders]
  split
  · intro failed
    cases failed
  · split
    · intro failed
      cases failed
    · split
      · intro failed
        cases failed
      · intro failed
        cases failed
      · split
        · intro failed
          cases failed
        · intro failed
          cases failed
        · split
          · intro failed
            cases failed
          · split
            · intro failed
              cases failed
            · split
              · intro failed
                cases failed
              · split
                · intro failed
                  cases failed
                · split <;> intro failed <;> cases failed

theorem ConnectResponse.ofHeaders_ne_unexpectedEnd (iterate : ∀ headers : Qpack.Headers, headers.Iteration)
    (headers : Qpack.Headers) : ofHeaders url http iterate headers ≠ .error .unexpectedEnd := by
  rw [ofHeaders]
  split
  · intro failed
    cases failed
  · split
    · intro failed
      cases failed
    · split <;> intro failed <;> cases failed

/-- A field section that is cut short inside its frame is an error of its own. -/
theorem headersBody_ne_unexpectedEnd {α : Type} {ofHeaders : Qpack.Headers → Except (ConnectError url http) α}
    (complete : ∀ headers, ofHeaders headers ≠ .error .unexpectedEnd) (typ : Frame) (data : List UInt8) :
    headersBody ofHeaders typ data ≠ .error .unexpectedEnd := by
  rw [headersBody]
  split
  · intro failed
    cases failed
  · cases Qpack.Headers.decode data with
    | error error =>
        intro failed
        cases failed
    | ok result => exact complete result.1

/-- Both runs build a header map of their own. -/
theorem ChecksFirst.retries {α : Type} {allowed : List String}
    {ofHeaders : (∀ headers : Qpack.Headers, headers.Iteration) → Qpack.Headers →
      Except (ConnectError url http) α}
    (checks : ChecksFirst allowed ofHeaders)
    (complete : ∀ iterate headers, ofHeaders iterate headers ≠ .error .unexpectedEnd)
    (iterate later : ∀ headers : Qpack.Headers, headers.Iteration) :
    Parser.RetriesOn
      (Parser.andThen Frame.read .unexpectedEnd fun frame =>
        Parser.always (headersBody (ofHeaders iterate) frame.1 frame.2))
      (Parser.andThen Frame.read .unexpectedEnd fun frame =>
        Parser.always (headersBody (ofHeaders later) frame.1 frame.2))
      .unexpectedEnd (SameUpToOrder allowed) := by
  refine (Parser.RetriesOn.andThen Frame.read_local Frame.read_completable fun frame =>
    Parser.RetriesOn.always ?_ ?_ ?_).mono ?_
  · exact fun value => (checks.accepts iterate later frame.1 frame.2 value).mp
  · intro error failed _
    cases found : headersBody (ofHeaders later) frame.1 frame.2 with
    | error other => exact ⟨other, rfl⟩
    | ok value =>
        rw [(checks.accepts iterate later frame.1 frame.2 value).mpr found] at failed
        cases failed
  · exact headersBody_ne_unexpectedEnd (complete later) frame.1 frame.2
  · intro input error other found
    obtain ⟨⟨typ, data⟩, rest, read, failed, laterFailed⟩ := found
    obtain ⟨run, rfl, rfl, rfl⟩ := Frame.run_of_read read
    exact checks.errors iterate later run rest error other failed laterFailed

theorem headers_retry {α : Type} {ofHeaders : Qpack.Headers → Except (ConnectError url http) α}
    (complete : ∀ headers, ofHeaders headers ≠ .error .unexpectedEnd) :
    Parser.RetriesOn
      (Parser.andThen Frame.read .unexpectedEnd fun frame =>
        Parser.always (headersBody ofHeaders frame.1 frame.2))
      (Parser.andThen Frame.read .unexpectedEnd fun frame =>
        Parser.always (headersBody ofHeaders frame.1 frame.2))
      .unexpectedEnd fun _ error later => error = later :=
  Parser.RetriesOn.andThen_uniform Frame.read_local Frame.read_completable fun frame =>
    Parser.RetriesOn.always_same (headersBody_ne_unexpectedEnd complete frame.1 frame.2)

end Connect

/-- `UnexpectedEnd` says of each decoder exactly that more input is needed.
Any other result stays, up to the pseudo-header that is named when several are
not allowed. -/
theorem unexpectedEnd_retries (url : UrlCrate) (http : HttpCrate) :
    Parser.RetriesOn Settings.decode Settings.decode .unexpectedEnd (fun _ error later => error = later) ∧
    (∀ iterate later,
      Parser.RetriesOn (ConnectRequest.decode url http iterate) (ConnectRequest.decode url http later)
        .unexpectedEnd (SameUpToOrder requestPseudoHeaders) ∧
      Parser.RetriesOn (ConnectResponse.decode url http iterate) (ConnectResponse.decode url http later)
        .unexpectedEnd (SameUpToOrder responsePseudoHeaders)) ∧
    ∀ iterate,
      Parser.RetriesOn (ConnectRequest.decode url http iterate) (ConnectRequest.decode url http iterate)
        .unexpectedEnd (fun _ error later => error = later) ∧
      Parser.RetriesOn (ConnectResponse.decode url http iterate) (ConnectResponse.decode url http iterate)
        .unexpectedEnd fun _ error later => error = later := by
  refine ⟨Settings.decode_retries, fun iterate later => ?_, fun iterate => ?_⟩
  · rw [ConnectRequest.decode_andThen, ConnectRequest.decode_andThen, ConnectResponse.decode_andThen,
      ConnectResponse.decode_andThen]
    exact ⟨ConnectRequest.checksFirst.retries ConnectRequest.ofHeaders_ne_unexpectedEnd iterate later,
      ConnectResponse.checksFirst.retries ConnectResponse.ofHeaders_ne_unexpectedEnd iterate later⟩
  · rw [ConnectRequest.decode_andThen, ConnectResponse.decode_andThen]
    exact ⟨headers_retry (ConnectRequest.ofHeaders_ne_unexpectedEnd iterate),
      headers_retry (ConnectResponse.ofHeaders_ne_unexpectedEnd iterate)⟩

/-- A request with the pseudo-headers `:a` and `:b`, decoded again with one more
byte behind it. -/
theorem unexpectedEnd_retries_orders :
    ¬ ∀ (url : UrlCrate) (http : HttpCrate) (iterate later : ∀ headers : Qpack.Headers, headers.Iteration),
      Parser.RetriesOn (ConnectRequest.decode url http iterate) (ConnectRequest.decode url http later)
        .unexpectedEnd fun _ error later => error = later := by
  intro retries
  let url := ConnectRequest.sampleUrls
  let http := ConnectRequest.sampleMethods
  have forwards := pairFrame_rejected url http pairForwards ":a" (by decide +kernel) []
  have backwards := pairFrame_rejected url http pairBackwards ":b" (by decide +kernel) [0x00]
  obtain ⟨error, failed, _, same⟩ := (retries url http (iterateWith pairForwards)
    (iterateWith pairBackwards)).error forwards nofun [0x00]
  subst same
  rw [List.append_nil, backwards] at failed
  have names := Qpack.DecodeError.invalidPseudoHeader.inj (ConnectError.qpackError.inj (Except.error.inj failed))
  exact absurd names (by decide)

end Webtrans.Proto
