import Webtrans.Session.CapsuleReader

namespace Webtrans.Session

open Webtrans.Data Webtrans.Proto

/-! Capsules come out of the CONNECT stream as they went in, however they were
cut into DATA frames and whatever other frames stand between those. -/

/-- The capsule bytes in a sequence of frames: the payloads of its DATA frames. -/
def dataOf : List Tlv → List UInt8
  | [] => []
  | frame :: frames =>
      if frame.typ = Frame.data.typ then frame.payload ++ dataOf frames else dataOf frames

def framesBytes (frames : List Tlv) : List UInt8 :=
  frames.flatMap Tlv.bytes

theorem pendingAfter_dataOf (pending : List UInt8) (frame : Tlv) (frames : List Tlv) :
    pendingAfter pending frame.typ frame.payload ++ dataOf frames =
      pending ++ dataOf (frame :: frames) := by
  rw [pendingAfter]
  rw [dataOf]
  split <;> simp

/-- The reader's invariant.  Behind the pending bytes the unread frames carry
exactly `content`; `tail` is what the stream holds behind these frames. -/
def Carries (recv : RecvStream) (pending : List UInt8) (frames : List Tlv)
    (content tail : List UInt8) : Prop :=
  recv.bytes = framesBytes frames ++ tail ∧
  (∀ frame ∈ frames, frame.payload.length ≤ maxCapsuleFrameSize) ∧
  pending ++ dataOf frames = content

theorem readFrame_bytes {recv : RecvStream} {frame : Tlv} {rest : List UInt8}
    (arrived : recv.bytes = frame.bytes ++ rest) (small : frame.payload.length ≤ maxCapsuleFrameSize) :
    readFrame recv = .done (frame.typ, frame.payload) (recv.advance frame.bytes.length) := by
  have typArrived : recv.bytes = frame.typBytes ++ (frame.lengthBytes ++ (frame.payload ++ rest)) := by
    rw [arrived]
    simp only [Tlv.bytes, Tlv.header, List.append_assoc]
  have lengthArrived : (recv.advance frame.typBytes.length).bytes =
      frame.lengthBytes ++ (frame.payload ++ rest) := by
    rw [ByteStream.bytes_advance, typArrived, List.drop_left]
  have payloadArrived : (recv.advance (frame.typBytes.length + frame.lengthBytes.length)).bytes =
      frame.payload ++ rest := by
    rw [← ByteStream.advance_advance, ByteStream.bytes_advance, lengthArrived, List.drop_left]
  have enough : frame.payload.length ≤
      (recv.advance (frame.typBytes.length + frame.lengthBytes.length)).bytes.length := by
    rw [payloadArrived, List.length_append]
    omega
  rw [readFrame]
  rw [varInt_read_reads typArrived frame.typ_reads, Read.bind_done,
    varInt_read_reads lengthArrived frame.length_reads, Read.bind_done, frame.length_eq,
    if_neg (by omega), ByteStream.advance_advance, ByteStream.readExact_done enough, Read.bind_done,
    payloadArrived, List.take_left, ByteStream.advance_advance]
  simp only [Tlv.bytes, Tlv.header, List.length_append]

theorem Carries.next {recv : RecvStream} {pending content tail : List UInt8} {frame : Tlv}
    {frames : List Tlv} (carries : Carries recv pending (frame :: frames) content tail) :
    readFrame recv = .done (frame.typ, frame.payload) (recv.advance frame.bytes.length) ∧
      Carries (recv.advance frame.bytes.length) (pendingAfter pending frame.typ frame.payload)
        frames content tail := by
  obtain ⟨arrived, small, carried⟩ := carries
  have split : recv.bytes = frame.bytes ++ (framesBytes frames ++ tail) := by
    rw [arrived, framesBytes, List.flatMap_cons, List.append_assoc]
    rfl
  refine ⟨readFrame_bytes split (small frame List.mem_cons_self), ?_, ?_, ?_⟩
  · rw [ByteStream.bytes_advance, split, List.drop_left]
  · intro other member
    exact small other (List.mem_cons_of_mem _ member)
  · rw [pendingAfter_dataOf, carried]

/-- What the buffer decoder makes of a front part of a capsule record: nothing
yet, or what the capsule decoder makes of the whole record.  An oversized
record is refused from its header on. -/
theorem decodeBufferedCapsule_prefix (record : Tlv) {pending unread rest : List UInt8}
    (split : pending ++ unread = record.bytes ++ rest) :
    (pending.length < record.bytes.length ∧ decodeBufferedCapsule pending = .ok none) ∨
    (∃ error, Capsule.decode record.bytes = .error error ∧
      decodeBufferedCapsule pending = .error error) ∨
    ∃ capsule behind, Capsule.decode record.bytes = .ok (capsule, []) ∧
      decodeBufferedCapsule pending = .ok (some (capsule, behind)) ∧ behind ++ unread = rest := by
  have whole := Capsule.decode_bytes record []
  rw [List.append_nil] at whole
  have header : record.header.length ≤ record.bytes.length := by
    rw [record.bytes_length]
    omega
  rw [decodeBufferedCapsule]
  rcases record.decode_prefix split with ⟨⟨error, failed⟩, short⟩ |
    ⟨⟨afterType, error, typDecoded, failed⟩, short⟩ |
    ⟨afterType, view, typDecoded, lengthDecoded, rfl, viewSplit⟩
  · left
    rw [failed]
    exact ⟨by omega, rfl⟩
  · left
    rw [typDecoded]
    dsimp only
    rw [failed]
    exact ⟨by omega, rfl⟩
  · simp only [typDecoded, lengthDecoded, record.length_eq]
    have position : (record.header ++ view).length - view.length = record.header.length := by simp
    rw [position]
    by_cases oversized : record.payload.length > 1028
    · right; left
      rw [if_pos oversized]
      exact ⟨.messageTooLong, whole.trans (if_pos oversized), rfl⟩
    · rw [if_neg oversized]
      by_cases short : (record.header ++ view).length < record.header.length + record.payload.length
      · left
        rw [if_pos short, record.bytes_length]
        exact ⟨short, rfl⟩
      · right
        rw [if_neg short]
        -- The payload is complete, so the view continues it.
        obtain ⟨behind, rfl⟩ : record.payload <+: view := by
          have front : record.payload <+: view ++ unread := viewSplit ▸ List.prefix_append _ rest
          refine List.prefix_of_prefix_length_le front (List.prefix_append view unread) ?_
          rw [List.length_append] at short
          omega
        have regroup : record.header ++ (record.payload ++ behind) = record.bytes ++ behind := by
          rw [Tlv.bytes, List.append_assoc]
        rw [regroup, ← record.bytes_length, List.take_left, List.drop_left, whole,
          if_neg (show ¬ record.payload.length > maxClosePayloadSize from oversized)]
        cases decoded : Capsule.decodePayload record.typ record.payload with
        | error error => exact .inl ⟨error, rfl, rfl⟩
        | ok capsule =>
            refine .inr ⟨capsule, behind, rfl, rfl, ?_⟩
            rw [List.append_assoc] at viewSplit
            exact List.append_cancel_left viewSplit

/-- The reader's outcome on a record is the decoder's outcome on that record,
and the invariant holds for what lies behind it. -/
theorem readCapsuleFrame_record {record : Tlv} {frames : List Tlv} {recv : RecvStream}
    {pending rest tail : List UInt8}
    (carries : Carries recv pending frames (record.bytes ++ rest) tail) :
    (∃ error, Capsule.decode record.bytes = .error error ∧
      readCapsuleFrame recv pending = .failed error) ∨
    ∃ capsule behind after unread, Capsule.decode record.bytes = .ok (capsule, []) ∧
      readCapsuleFrame recv pending = .done (capsule, behind) after ∧
      Carries after behind unread rest tail ∧ after.ending = recv.ending := by
  induction frames generalizing recv pending with
  | nil =>
      obtain ⟨arrived, small, carried⟩ := carries
      rw [readCapsuleFrame_eq]
      rcases decodeBufferedCapsule_prefix record carried with ⟨short, _⟩ | ⟨error, rejected, buffered⟩ |
        ⟨capsule, behind, decoded, buffered, carried⟩
      · have lengths := congrArg List.length carried
        simp only [dataOf, List.append_nil, List.length_append] at lengths
        omega
      · rw [buffered]
        exact .inl ⟨error, rejected, rfl⟩
      · rw [buffered]
        exact .inr ⟨capsule, behind, recv, [], decoded, rfl, ⟨arrived, small, carried⟩, rfl⟩
  | cons frame frames ih =>
      rw [readCapsuleFrame_eq]
      rcases decodeBufferedCapsule_prefix record carries.2.2 with ⟨_, buffered⟩ |
        ⟨error, rejected, buffered⟩ | ⟨capsule, behind, decoded, buffered, carried⟩
      · obtain ⟨frameRead, carried⟩ := carries.next
        rw [buffered, frameRead]
        rcases ih carried with ⟨error, rejected, failed⟩ |
          ⟨capsule, behind, after, unread, decoded, completed, carriesAfter, ending⟩
        · exact .inl ⟨error, rejected, failed⟩
        · exact .inr ⟨capsule, behind, after, unread, decoded, completed, carriesAfter, ending⟩
      · rw [buffered]
        exact .inl ⟨error, rejected, rfl⟩
      · rw [buffered]
        exact .inr ⟨capsule, behind, recv, frame :: frames, decoded, rfl,
          ⟨carries.1, carries.2.1, carried⟩, rfl⟩

theorem readCapsuleFrame_exhausted {frames : List Tlv} {recv : RecvStream} {pending : List UInt8}
    (carries : Carries recv pending frames [] []) (finished : recv.ending = .finished) :
    readCapsuleFrame recv pending = .failed .unexpectedEnd := by
  have empty : pending = [] := (List.append_eq_nil_iff.mp carries.2.2).1
  subst empty
  have nothing : decodeBufferedCapsule [] = .ok none := rfl
  induction frames generalizing recv with
  | nil =>
      have noBytes : recv.bytes = [] := by
        rw [carries.1]
        rfl
      rw [readCapsuleFrame_eq, nothing]
      simp only [readFrame, VarInt.read_eq, noBytes, VarInt.decode, finished, Read.bind_failed, id]
  | cons frame frames ih =>
      obtain ⟨frameRead, carriesNext⟩ := carries.next
      rw [readCapsuleFrame_eq, nothing, frameRead]
      have still : pendingAfter [] frame.typ frame.payload = [] :=
        (List.append_eq_nil_iff.mp carriesNext.2.2).1
      dsimp only [Read.bind_done]
      rw [still] at carriesNext ⊢
      exact ih finished carriesNext

def encodeAll : List Capsule → List UInt8 → Except CapsuleError Unit × List UInt8
  | [], buf => (.ok (), buf)
  | capsule :: capsules, buf =>
      match capsule.encode buf with
      | (.error error, buf) => (.error error, buf)
      | (.ok (), buf) => encodeAll capsules buf

/-- Successive calls of the reader that share one `pending` buffer. -/
def readCapsules : Nat → RecvStream → List UInt8 → Read IoError CapsuleError (List Capsule × List UInt8)
  | 0, recv, pending => .done ([], pending) recv
  | count + 1, recv, pending =>
      (readCapsuleFrame recv pending).bind id fun (capsule, pending) recv =>
        (readCapsules count recv pending).bind id fun (capsules, pending) recv =>
          .done (capsule :: capsules, pending) recv

theorem encodeAll_records {capsules : List Capsule} {buf out : List UInt8}
    (encoded : encodeAll capsules buf = (.ok (), out)) (canonical : ∀ capsule ∈ capsules, capsule.Canonical) :
    ∃ records : List Tlv, out = buf ++ records.flatMap Tlv.bytes ∧
      List.Forall₂ (fun (record : Tlv) capsule => Capsule.decode.Reads record.bytes capsule)
        records capsules := by
  induction capsules generalizing buf with
  | nil =>
      cases encoded
      exact ⟨[], by simp, .nil⟩
  | cons capsule capsules ih =>
      rw [encodeAll] at encoded
      split at encoded
      · cases encoded
      · rename_i middle first
        obtain ⟨fits, bound, rfl⟩ := Capsule.encode_ok first
        obtain ⟨records, rfl, reads⟩ := ih encoded fun other member =>
          canonical other (List.mem_cons_of_mem _ member)
        refine ⟨Tlv.shortest capsule.typ capsule.payload bound :: records, ?_, .cons ?_ reads⟩
        · rw [List.flatMap_cons, List.append_assoc]
        · exact Capsule.decode_reads_tlv (canonical capsule List.mem_cons_self) rfl rfl fits

theorem readCapsules_records {records : List Tlv} {capsules : List Capsule}
    (reads : List.Forall₂ (fun (record : Tlv) capsule => Capsule.decode.Reads record.bytes capsule)
      records capsules)
    {frames : List Tlv} {recv : RecvStream} {pending rest tail : List UInt8}
    (carries : Carries recv pending frames (records.flatMap Tlv.bytes ++ rest) tail) :
    ∃ behind after unread, readCapsules capsules.length recv pending = .done (capsules, behind) after ∧
      Carries after behind unread rest tail ∧ after.ending = recv.ending := by
  induction reads generalizing frames recv pending with
  | nil => exact ⟨pending, recv, frames, rfl, carries, rfl⟩
  | cons read reads ih =>
      rw [List.flatMap_cons, List.append_assoc] at carries
      rcases readCapsuleFrame_record carries with ⟨error, rejected, _⟩ |
        ⟨found, behind, after, unread, decoded, completed, carriesAfter, ending⟩
      · rw [read.alone] at rejected
        cases rejected
      · rw [read.alone] at decoded
        cases decoded
        obtain ⟨behind, last, unread, later, carriesLast, lastEnding⟩ := ih carriesAfter
        refine ⟨behind, last, unread, ?_, carriesLast, lastEnding.trans ending⟩
        rw [List.length_cons, readCapsules, completed, Read.bind_done]
        dsimp only
        rw [later, Read.bind_done]

/-- Capsule reassembly is independent of framing.  The DATA frames may cut the
encoded capsules anywhere, and frames of every other type may stand between
them: as many reads return the capsules in order, leave nothing pending, and a
further read at the end of the stream reports it. -/
theorem readCapsules_encodeAll {capsules : List Capsule} {bytes : List UInt8}
    (encoded : encodeAll capsules [] = (.ok (), bytes))
    (canonical : ∀ capsule ∈ capsules, capsule.Canonical)
    {frames : List Tlv} (small : ∀ frame ∈ frames, frame.payload.length ≤ maxCapsuleFrameSize)
    (cut : dataOf frames = bytes) {recv : RecvStream} (arrived : recv.bytes = framesBytes frames) :
    ∃ after, readCapsules capsules.length recv [] = .done (capsules, []) after ∧
      (recv.ending = .finished → readCapsuleFrame after [] = .failed .unexpectedEnd) := by
  obtain ⟨records, rfl, reads⟩ := encodeAll_records encoded canonical
  have carries : Carries recv [] frames (records.flatMap Tlv.bytes ++ []) [] :=
    ⟨by rw [arrived, List.append_nil], small, by rw [cut, List.append_nil]; rfl⟩
  obtain ⟨behind, after, unread, completed, carriesAfter, ending⟩ := readCapsules_records reads carries
  obtain rfl : behind = [] := (List.append_eq_nil_iff.mp carriesAfter.2.2).1
  exact ⟨after, completed, fun finished =>
    readCapsuleFrame_exhausted carriesAfter (ending.trans finished)⟩

/-- A CLOSE capsule cut behind its header, with a GREASE frame and an empty
DATA frame inside it. -/
theorem readCapsules_encodeAll_close :
    ∃ after, readCapsules 1
        ⟨[[0x00, 0x03, 0x68], [0x43, 0x06, 0x21, 0x01, 0xff, 0x00, 0x00],
          [0x00, 0x06, 0x00, 0x00, 0x00, 0x2a, 0x68, 0x69]], .finished⟩ [] =
          .done ([.closeWebTransportSession 42 "hi"], []) after ∧
      (Ending.finished (ι := IoError) = .finished → readCapsuleFrame after [] = .failed .unexpectedEnd) :=
  @readCapsules_encodeAll [.closeWebTransportSession 42 "hi"]
    [0x68, 0x43, 0x06, 0x00, 0x00, 0x00, 0x2a, 0x68, 0x69] (by decide) (by simp [Capsule.Canonical])
    [Tlv.shortest Frame.data.typ [0x68, 0x43, 0x06] (by decide),
      Tlv.shortest ⟨0x21, by decide⟩ [0xff] (by decide), Tlv.shortest Frame.data.typ [] (by decide),
      Tlv.shortest Frame.data.typ [0x00, 0x00, 0x00, 0x2a, 0x68, 0x69] (by decide)]
    (by decide) (by decide)
    ⟨[[0x00, 0x03, 0x68], [0x43, 0x06, 0x21, 0x01, 0xff, 0x00, 0x00],
      [0x00, 0x06, 0x00, 0x00, 0x00, 0x2a, 0x68, 0x69]], .finished⟩ (by decide)

/-- Of the capsules the decoder rejects, the classifier takes one kind for the
end of the stream: a CLOSE capsule too short for its code. -/
theorem isGracefulClose_rejected {record : Tlv} {error : CapsuleError}
    (rejected : Capsule.decode record.bytes = .error error) :
    isGracefulClose error = true ↔
      record.typ.intoInner = closeWebtransportSessionType ∧ record.payload.length < 4 := by
  have whole := Capsule.decode_bytes record []
  rw [List.append_nil, rejected] at whole
  split at whole
  case isTrue oversized =>
    cases whole
    simp only [isGracefulClose, Bool.false_eq_true, false_iff, not_and]
    intro _
    rw [maxClosePayloadSize] at oversized
    omega
  case isFalse =>
    rw [Capsule.decodePayload] at whole
    by_cases close : record.typ.intoInner = closeWebtransportSessionType
    · rw [if_pos close] at whole
      by_cases short : record.payload.length < 4
      · rw [if_pos short] at whole
        cases whole
        simp [isGracefulClose, close, short]
      · rw [if_neg short] at whole
        dsimp only at whole
        have notGraceful : isGracefulClose error = false := by
          split at whole
          · cases whole
            rfl
          · split at whole <;> cases whole
            rfl
        simp [notGraceful, short]
    · rw [if_neg close] at whole
      cases whole

theorem runClosedReader_ignored {ignored : List Tlv}
    (unknown : ∀ record ∈ ignored, ∃ typ payload,
      Capsule.decode record.bytes = .ok (.unknown typ payload, []))
    {frames : List Tlv} {recv : RecvStream} {pending rest tail : List UInt8}
    (carries : Carries recv pending frames (ignored.flatMap Tlv.bytes ++ rest) tail) :
    ∃ after behind unread, runClosedReader recv pending = runClosedReader after behind ∧
      Carries after behind unread rest tail := by
  induction ignored generalizing frames recv pending with
  | nil => exact ⟨recv, pending, frames, rfl, carries⟩
  | cons record ignored ih =>
      obtain ⟨typ, payload, isUnknown⟩ := unknown record List.mem_cons_self
      rw [List.flatMap_cons, List.append_assoc] at carries
      rcases readCapsuleFrame_record carries with ⟨error, rejected, _⟩ |
        ⟨found, behind, after, unread, decoded, completed, carriesAfter, _⟩
      · rw [isUnknown] at rejected
        cases rejected
      · rw [isUnknown] at decoded
        cases decoded
        obtain ⟨last, behind, unread, skipped, carriesLast⟩ :=
          ih (fun other member => unknown other (List.mem_cons_of_mem _ member)) carriesAfter
        exact ⟨last, behind, unread, (runClosedReader_unknown completed).trans skipped, carriesLast⟩

/-- A completely received capsule that the decoder rejects makes `run_closed`
fail with an error that is no graceful end, except for a CLOSE capsule with
fewer than four bytes of payload. -/
theorem runClosedReader_rejected_iff {ignored : List Tlv} {bad : Tlv} {error : CapsuleError}
    (unknown : ∀ record ∈ ignored, ∃ typ payload,
      Capsule.decode record.bytes = .ok (.unknown typ payload, []))
    (rejected : Capsule.decode bad.bytes = .error error)
    {frames : List Tlv} {recv : RecvStream} {rest tail : List UInt8}
    (carries : Carries recv [] frames (ignored.flatMap Tlv.bytes ++ (bad.bytes ++ rest)) tail) :
    (∃ reported, runClosedReader recv [] = .failed reported ∧ isGracefulClose reported = false) ↔
      ¬ (bad.typ.intoInner = closeWebtransportSessionType ∧ bad.payload.length < 4) := by
  obtain ⟨after, behind, unread, skipped, carriesBad⟩ := runClosedReader_ignored unknown carries
  rw [skipped]
  rcases readCapsuleFrame_record carriesBad with ⟨found, again, failed⟩ |
    ⟨capsule, _, _, _, decoded, _⟩
  · rw [again] at rejected
    cases rejected
    rw [runClosedReader_failed failed, ← isGracefulClose_rejected again]
    cases graceful : isGracefulClose error <;> simp [graceful]
  · rw [rejected] at decoded
    cases decoded

/-- A reason that is not UTF-8, behind an ignored capsule and cut into two
frames. -/
theorem runClosedReader_rejected_invalidUtf8 :
    (∃ reported, runClosedReader
        ⟨[[0x00, 0x05, 0x17, 0x01, 0xff, 0x68, 0x43], [0x00, 0x06, 0x05, 0x00, 0x00, 0x00, 0x00, 0xff, 0x00]],
          .waiting⟩ [] = .failed reported ∧ isGracefulClose reported = false) ↔
      ¬ (closeWebtransportSessionType = closeWebtransportSessionType ∧ 5 < 4) :=
  @runClosedReader_rejected_iff [Tlv.shortest ⟨0x17, by decide⟩ [0xff] (by decide)]
    (Tlv.shortest ⟨closeWebtransportSessionType, by decide⟩ [0x00, 0x00, 0x00, 0x00, 0xff] (by decide))
    .invalidUtf8 (by simpa using ⟨⟨0x17, by decide⟩, [0xff], rfl⟩) (by decide +kernel)
    [Tlv.shortest Frame.data.typ [0x17, 0x01, 0xff, 0x68, 0x43] (by decide),
      Tlv.shortest Frame.data.typ [0x05, 0x00, 0x00, 0x00, 0x00, 0xff] (by decide)]
    ⟨[[0x00, 0x05, 0x17, 0x01, 0xff, 0x68, 0x43], [0x00, 0x06, 0x05, 0x00, 0x00, 0x00, 0x00, 0xff, 0x00]],
      .waiting⟩ [] [0x00] ⟨by decide, by decide, by decide⟩

/-- A complete CLOSE capsule with three bytes of payload is rejected by the
decoder, and `run_closed` reports a clean end of the stream. -/
theorem runClosedReader_shortClose :
    Capsule.decode [0x68, 0x43, 0x03, 0x00, 0x00, 0x00] = .error .unexpectedEnd ∧
      runClosedReader ⟨[[0x00, 0x06, 0x68, 0x43, 0x03, 0x00, 0x00, 0x00]], .waiting⟩ [] =
        .done none ⟨[[0x00, 0x06, 0x68, 0x43, 0x03, 0x00, 0x00, 0x00]], .waiting⟩ := by
  decide +kernel

end Webtrans.Session
