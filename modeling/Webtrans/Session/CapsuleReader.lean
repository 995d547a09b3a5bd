import Webtrans.Proto.Capsule
import Webtrans.Proto.Frame
import Mathlib.Data.List.Infix

namespace Webtrans.Session

open Webtrans.Data Webtrans.Proto

/-! The capsule reader of the CONNECT stream.  `webtrans-quinn/src/session.rs`
and `webtrans-quion/src/session.rs` carry the same functions word for word, so
one model serves both backends. -/

def maxCapsuleFrameSize : Nat := 2 * 1024

abbrev RecvStream := ByteStream IoError

def containsIgnoringCase (text words : String) : Bool :=
  decide (words.toList <:+: text.toList.map Char.toLower)

def isGracefulClose : CapsuleError → Bool
  | .io error =>
      (match error.kind with
        | .unexpectedEof | .brokenPipe | .connectionReset | .connectionAborted | .notConnected => true
        | .other => false) ||
      containsIgnoringCase error.message "connection lost"
  | .unexpectedEnd => true
  | _ => false

/-- Take one complete capsule from the front of the pending bytes.  On success
the second component is what stays pending; otherwise nothing is removed. -/
def decodeBufferedCapsule (pending : List UInt8) :
    Except CapsuleError (Option (Capsule × List UInt8)) :=
  match VarInt.decode pending with
  | .error _ => .ok none
  | .ok (_, cursor) =>
      match VarInt.decode cursor with
      | .error _ => .ok none
      | .ok (length, view) =>
          -- The capsule codec's limit: a 4-byte code and 1,024 bytes of reason.
          if length.intoInner > 1028 then .error .messageTooLong
          else
            let position := pending.length - view.length
            let total := position + length.intoInner
            if pending.length < total then .ok none
            else
              match Capsule.decode (pending.take total) with
              | .error error => .error error
              | .ok (capsule, _) => .ok (some (capsule, pending.drop total))

/-- One frame of the CONNECT stream: the part of the reader's loop that waits
for the transport. -/
def readFrame (recv : RecvStream) : Read IoError CapsuleError (VarInt × List UInt8) :=
  (VarInt.read .earlyEof recv).bind (fun _ => .unexpectedEnd) fun typ recv =>
    (VarInt.read .earlyEof recv).bind (fun _ => .unexpectedEnd) fun length recv =>
      if length.intoInner > maxCapsuleFrameSize then .failed .messageTooLong
      else
        (recv.readExact .earlyEof length.intoInner).bind .io fun payload recv =>
          .done (typ, payload) recv

theorem varInt_read_done {eof : IoError} {recv after : RecvStream} {x : VarInt}
    (completed : VarInt.read eof recv = .done x after) : after.bytes.length < recv.bytes.length := by
  rw [VarInt.read_eq] at completed
  cases decoded : VarInt.decode recv.bytes with
  | error error =>
      rw [decoded] at completed
      cases ending : recv.ending <;> rw [ending] at completed <;> cases completed
  | ok result =>
      obtain ⟨value, rest⟩ := result
      have shorter := VarInt.decode_length_lt decoded
      simp only [decoded, Read.done.injEq] at completed
      rw [← completed.2, ByteStream.bytes_advance, List.length_drop]
      omega

theorem varInt_read_reads {eof : IoError} {recv : RecvStream} {encoded rest : List UInt8} {x : VarInt}
    (arrived : recv.bytes = encoded ++ rest) (reads : VarInt.decode.Reads encoded x) :
    VarInt.read eof recv = .done x (recv.advance encoded.length) := by
  have consumed : (encoded ++ rest).length - rest.length = encoded.length := by simp
  rw [VarInt.read_eq, arrived, reads rest]
  dsimp only
  rw [consumed]

theorem readFrame_length {recv after : RecvStream} {typ : VarInt} {payload : List UInt8}
    (completed : readFrame recv = .done (typ, payload) after) :
    after.bytes.length + payload.length < recv.bytes.length := by
  obtain ⟨typ', afterType, typRead, completed⟩ := Read.bind_eq_done completed
  obtain ⟨length, afterLength, lengthRead, completed⟩ := Read.bind_eq_done completed
  split at completed
  · cases completed
  · obtain ⟨bytes, afterPayload, payloadRead, completed⟩ := Read.bind_eq_done completed
    cases completed
    have typShorter := varInt_read_done typRead
    have lengthShorter := varInt_read_done lengthRead
    rw [ByteStream.readExact_eq] at payloadRead
    split at payloadRead
    · cases payloadRead
      simp only [ByteStream.bytes_advance, List.length_drop, List.length_take]
      omega
    · cases ending : afterLength.ending <;> rw [ending] at payloadRead <;> cases payloadRead

/-- Read frames until a capsule is complete.  Between calls `pending` carries
the bytes behind the last capsule. -/
def readCapsuleFrame (recv : RecvStream) (pending : List UInt8) :
    Read IoError CapsuleError (Capsule × List UInt8) :=
  match decodeBufferedCapsule pending with
  | .error error => .failed error
  | .ok (some (capsule, behind)) => .done (capsule, behind) recv
  | .ok none =>
      match _frameRead : readFrame recv with
      | .pending => .pending
      | .panicked => .panicked
      | .failed error => .failed error
      | .done (typ, payload) recv =>
          if isGreaseValue typ.intoInner then readCapsuleFrame recv pending
          else if (⟨typ⟩ : Frame) ≠ Frame.data then readCapsuleFrame recv pending
          else readCapsuleFrame recv (pending ++ payload)
termination_by recv.bytes.length
decreasing_by
  all_goals
    have shorter := readFrame_length _frameRead
    omega

/-- The pending bytes after a frame: only DATA frames add to them. -/
def pendingAfter (pending : List UInt8) (typ : VarInt) (payload : List UInt8) : List UInt8 :=
  if typ = Frame.data.typ then pending ++ payload else pending

theorem readCapsuleFrame_eq (recv : RecvStream) (pending : List UInt8) :
    readCapsuleFrame recv pending =
      match decodeBufferedCapsule pending with
      | .error error => .failed error
      | .ok (some (capsule, behind)) => .done (capsule, behind) recv
      | .ok none => (readFrame recv).bind id fun frame recv =>
          readCapsuleFrame recv (pendingAfter pending frame.1 frame.2) := by
  rw [readCapsuleFrame]
  cases buffered : decodeBufferedCapsule pending with
  | error error => rfl
  | ok found =>
      cases found with
      | some result => rfl
      | none =>
          dsimp only
          split
          next frameRead => rw [frameRead]; rfl
          next frameRead => rw [frameRead]; rfl
          next frameRead => rw [frameRead]; rfl
          next typ payload after frameRead =>
            rw [frameRead, Read.bind_done]
            -- The DATA type is not a GREASE value, so the two tests are one.
            have dataTyp : (⟨typ⟩ : Frame) ≠ Frame.data ↔ typ ≠ Frame.data.typ := by
              rw [ne_eq, Frame.mk.injEq, ne_eq]
            by_cases isData : typ = Frame.data.typ
            · subst isData
              have notGrease : ¬ isGreaseValue Frame.data.typ.intoInner = true := by decide
              rw [if_neg notGrease, if_neg (by simp [dataTyp])]
              simp only [pendingAfter, if_true]
            · simp only [pendingAfter, if_neg isData, if_pos (dataTyp.mpr isData), ite_self]

theorem decodeBufferedCapsule_length {pending behind : List UInt8} {capsule : Capsule}
    (decoded : decodeBufferedCapsule pending = .ok (some (capsule, behind))) :
    behind.length < pending.length := by
  rw [decodeBufferedCapsule] at decoded
  split at decoded
  · cases decoded
  · rename_i typ cursor typDecoded
    split at decoded
    · cases decoded
    · rename_i length view lengthDecoded
      have typShorter := VarInt.decode_length_lt typDecoded
      have lengthShorter := VarInt.decode_length_lt lengthDecoded
      dsimp only at decoded
      split at decoded
      · cases decoded
      · split at decoded
        · cases decoded
        · split at decoded
          · cases decoded
          · cases decoded
            rw [List.length_drop]
            omega

theorem readCapsuleFrame_length {recv after : RecvStream} {pending behind : List UInt8}
    {capsule : Capsule} (completed : readCapsuleFrame recv pending = .done (capsule, behind) after) :
    after.bytes.length + behind.length < recv.bytes.length + pending.length := by
  induction size : recv.bytes.length using Nat.strong_induction_on generalizing recv pending with
  | h size ih =>
      subst size
      rw [readCapsuleFrame_eq] at completed
      split at completed
      · cases completed
      · rename_i found rest decoded
        cases completed
        have shorter := decodeBufferedCapsule_length decoded
        omega
      · obtain ⟨⟨typ, payload⟩, next, frameRead, completed⟩ := Read.bind_eq_done completed
        have shorter := readFrame_length frameRead
        have later := ih _ (by omega) completed rfl
        have grown : (pendingAfter pending typ payload).length ≤ pending.length + payload.length := by
          rw [pendingAfter]
          split <;> simp
        dsimp only at later
        omega

/-- `run_closed` as long as no local close is requested: read capsules until
one ends the session or the reader fails.  Unknown capsule types, reserved
GREASE values included, are ignored. -/
def runClosedReader (recv : RecvStream) (pending : List UInt8) :
    Read IoError CapsuleError (Option (UInt32 × String)) :=
  match _capsuleRead : readCapsuleFrame recv pending with
  | .pending => .pending
  | .panicked => .panicked
  | .failed error => if isGracefulClose error then .done none recv else .failed error
  | .done (.closeWebTransportSession code reason, _) after => .done (some (code, reason)) after
  | .done (.unknown _ _, behind) after => runClosedReader after behind
termination_by recv.bytes.length + pending.length
decreasing_by exact readCapsuleFrame_length _capsuleRead

theorem runClosedReader_failed {recv : RecvStream} {pending : List UInt8} {error : CapsuleError}
    (failed : readCapsuleFrame recv pending = .failed error) :
    runClosedReader recv pending =
      if isGracefulClose error then .done none recv else .failed error := by
  rw [runClosedReader]
  split <;> simp_all

theorem runClosedReader_unknown {recv after : RecvStream} {pending payload behind : List UInt8}
    {typ : VarInt} (completed : readCapsuleFrame recv pending = .done (.unknown typ payload, behind) after) :
    runClosedReader recv pending = runClosedReader after behind := by
  rw [runClosedReader]
  split <;> simp_all

end Webtrans.Session
