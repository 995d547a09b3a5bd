import Webtrans.Data.Transition
import Webtrans.Session.CapsuleBuffer

namespace Webtrans.Session.CapsuleCalls

open Webtrans.Data Webtrans.Proto

/-! Calls of `read_capsule_frame` that share one `pending` buffer, one await
point at a time.  Bytes arrive at any time, and a call may be dropped wherever
it waits. -/

/-- Where a call stands.  Between two calls the last result is kept. -/
inductive Place where
  | idle (last : Option (Except CapsuleError Capsule))
  | decoding
  | frameType
  | frameLength (typ : VarInt)
  -- `vec![0; length]` stands and waits to be filled.
  | framePayload (typ : VarInt) (allocated : Nat)
deriving DecidableEq, Repr

/-- A new frame is being read from the stream. -/
def Place.Reading : Place → Prop
  | idle _ => False
  | decoding => False
  | frameType => True
  | frameLength _ => True
  | framePayload _ _ => True

structure State where
  recv : RecvStream
  pending : List UInt8 := []
  place : Place := .idle none
deriving DecidableEq, Repr

inductive Event where
  | call
  | advance
  | arrives (chunk : List UInt8)
  | ends (ending : Ending IoError)
  -- The call is dropped after its read has taken some bytes.
  | cancelled (taken : Nat)
deriving DecidableEq, Repr

/-- A read that fails has taken all bytes that had arrived. -/
def State.failed (state : State) (error : CapsuleError) : State :=
  { state with recv := state.recv.advance state.recv.bytes.length, place := .idle (some (.error error)) }

/-- The call goes on to its next await point, or returns. -/
def advance (state : State) : Option State :=
  match state.place with
  | .idle _ => none
  | .decoding =>
      match bufferedCall state.pending with
      | (.error error, pending) => some { state with pending, place := .idle (some (.error error)) }
      | (.ok (some capsule), pending) => some { state with pending, place := .idle (some (.ok capsule)) }
      | (.ok none, pending) => some { state with pending, place := .frameType }
  | .frameType =>
      match VarInt.read .earlyEof state.recv with
      | .pending => none
      | .panicked => none
      | .failed _ => some (state.failed .unexpectedEnd)
      | .done typ recv => some { state with recv, place := .frameLength typ }
  | .frameLength typ =>
      match VarInt.read .earlyEof state.recv with
      | .pending => none
      | .panicked => none
      | .failed _ => some (state.failed .unexpectedEnd)
      | .done length recv =>
          if length.intoInner > maxCapsuleFrameSize then
            some { state with recv, place := .idle (some (.error .messageTooLong)) }
          else some { state with recv, place := .framePayload typ length.intoInner }
  | .framePayload typ allocated =>
      match state.recv.readExact .earlyEof allocated with
      | .pending => none
      | .panicked => none
      | .failed error => some (state.failed (.io error))
      | .done payload recv =>
          if isGreaseValue typ.intoInner then some { state with recv, place := .decoding }
          else if (⟨typ⟩ : Frame) ≠ Frame.data then some { state with recv, place := .decoding }
          else some { state with recv, pending := state.pending ++ payload, place := .decoding }

def step (state : State) : Event → Option State
  | .call =>
      match state.place with
      | .idle _ => some { state with place := .decoding }
      | _ => none
  | .advance => advance state
  | .arrives chunk =>
      match state.recv.ending with
      | .waiting => some { state with recv := { state.recv with chunks := state.recv.chunks ++ [chunk] } }
      | _ => none
  | .ends ending =>
      match state.recv.ending with
      | .waiting => some { state with recv := { state.recv with ending } }
      | _ => none
  | .cancelled taken =>
      match state.place with
      | .idle _ => none
      | _ => some { state with recv := state.recv.advance taken, place := .idle none }

/-- What the reader makes of the rest of a frame whose type and length are read. -/
def payloadThen (typ : VarInt) (length : Nat) (recv : RecvStream) (pending : List UInt8) :
    Read IoError CapsuleError (Capsule × List UInt8) :=
  (recv.readExact .earlyEof length).bind .io fun payload recv =>
    readCapsuleFrame recv (pendingAfter pending typ payload)

def lengthThen (typ : VarInt) (recv : RecvStream) (pending : List UInt8) :
    Read IoError CapsuleError (Capsule × List UInt8) :=
  (VarInt.read .earlyEof recv).bind (fun _ => .unexpectedEnd) fun length recv =>
    if length.intoInner > maxCapsuleFrameSize then .failed .messageTooLong
    else payloadThen typ length.intoInner recv pending

/-- The outcome that `readCapsuleFrame` gives a call from here on. -/
def outcome (state : State) : Read IoError CapsuleError (Capsule × List UInt8) :=
  match state.place with
  | .idle none => .pending
  | .idle (some (.error error)) => .failed error
  | .idle (some (.ok capsule)) => .done (capsule, state.pending) state.recv
  | .decoding => readCapsuleFrame state.recv state.pending
  | .frameType =>
      (VarInt.read .earlyEof state.recv).bind (fun _ => .unexpectedEnd) fun typ recv =>
        lengthThen typ recv state.pending
  | .frameLength typ => lengthThen typ state.recv state.pending
  | .framePayload typ allocated => payloadThen typ allocated state.recv state.pending

theorem readFrame_then (recv : RecvStream) (pending : List UInt8) :
    ((readFrame recv).bind id fun frame recv => readCapsuleFrame recv (pendingAfter pending frame.1 frame.2)) =
      (VarInt.read .earlyEof recv).bind (fun _ => .unexpectedEnd) fun typ recv =>
        lengthThen typ recv pending := by
  rw [readFrame]
  cases VarInt.read .earlyEof recv with
  | done typ recv =>
      simp only [Read.bind_done, lengthThen]
      cases VarInt.read .earlyEof recv with
      | done length recv =>
          simp only [Read.bind_done]
          split
          · rfl
          · rw [payloadThen]
            cases recv.readExact .earlyEof length.intoInner <;> rfl
      | _ => rfl
  | _ => rfl

theorem pendingAfter_eq (pending : List UInt8) (typ : VarInt) (payload : List UInt8) :
    pendingAfter pending typ payload =
      if isGreaseValue typ.intoInner then pending
      else if (⟨typ⟩ : Frame) ≠ Frame.data then pending
      else pending ++ payload := by
  by_cases isData : typ = Frame.data.typ
  · subst isData
    have ordinary : ¬ isGreaseValue Frame.data.typ.intoInner = true := by decide
    rw [pendingAfter, if_pos rfl, if_neg ordinary, if_neg (by simp)]
  · have differs : (⟨typ⟩ : Frame) ≠ Frame.data := by
      rw [ne_eq, Frame.mk.injEq]
      exact isData
    rw [pendingAfter, if_neg isData, if_pos differs, ite_self]

theorem advance_payload {state : State} {typ : VarInt} {allocated : Nat} {payload : List UInt8}
    {recv : RecvStream} (place : state.place = .framePayload typ allocated)
    (filled : state.recv.readExact .earlyEof allocated = .done payload recv) :
    advance state =
      some { recv, pending := pendingAfter state.pending typ payload, place := .decoding } := by
  rw [advance, place]
  dsimp only
  rw [filled, pendingAfter_eq]
  dsimp only
  split
  · rfl
  · split <;> rfl

/-- What one step of a call does, by where it stands. -/
inductive Advances (recv : RecvStream) (pending : List UInt8) : Place → State → Prop where
  | decodeFailed {error : CapsuleError} : decodeBufferedCapsule pending = .error error →
      Advances recv pending .decoding ⟨recv, pending, .idle (some (.error error))⟩
  | decoded {capsule : Capsule} {behind : List UInt8} :
      decodeBufferedCapsule pending = .ok (some (capsule, behind)) →
      Advances recv pending .decoding ⟨recv, behind, .idle (some (.ok capsule))⟩
  | waits : decodeBufferedCapsule pending = .ok none →
    Advances recv pending .decoding ⟨recv, pending, .frameType⟩
  | typeRead {typ : VarInt} {after : RecvStream} : VarInt.read .earlyEof recv = .done typ after →
      Advances recv pending .frameType ⟨after, pending, .frameLength typ⟩
  | typeFailed {error : VarIntUnexpectedEnd} : VarInt.read .earlyEof recv = .failed error →
      Advances recv pending .frameType (State.failed ⟨recv, pending, .frameType⟩ .unexpectedEnd)
  | oversized {typ length : VarInt} {after : RecvStream} : VarInt.read .earlyEof recv = .done length after →
      maxCapsuleFrameSize < length.intoInner →
      Advances recv pending (.frameLength typ) ⟨after, pending, .idle (some (.error .messageTooLong))⟩
  | lengthRead {typ length : VarInt} {after : RecvStream} : VarInt.read .earlyEof recv = .done length after →
      ¬ maxCapsuleFrameSize < length.intoInner →
      Advances recv pending (.frameLength typ) ⟨after, pending, .framePayload typ length.intoInner⟩
  | lengthFailed {typ : VarInt} {error : VarIntUnexpectedEnd} : VarInt.read .earlyEof recv = .failed error →
      Advances recv pending (.frameLength typ) (State.failed ⟨recv, pending, .frameLength typ⟩ .unexpectedEnd)
  | payloadRead {typ : VarInt} {allocated : Nat} {payload : List UInt8} {after : RecvStream} :
      recv.readExact .earlyEof allocated = .done payload after →
      Advances recv pending (.framePayload typ allocated) ⟨after, pendingAfter pending typ payload, .decoding⟩
  | payloadFailed {typ : VarInt} {allocated : Nat} {error : IoError} :
      recv.readExact .earlyEof allocated = .failed error →
      Advances recv pending (.framePayload typ allocated)
        (State.failed ⟨recv, pending, .framePayload typ allocated⟩ (.io error))

theorem advance_cases {recv : RecvStream} {pending : List UInt8} {place : Place} {next : State}
    (advanced : advance ⟨recv, pending, place⟩ = some next) : Advances recv pending place next := by
  cases place with
  | idle last => cases advanced
  | decoding =>
      simp only [advance, bufferedCall] at advanced
      cases decoded : decodeBufferedCapsule pending with
      | error error =>
          rw [decoded] at advanced
          cases advanced
          exact .decodeFailed decoded
      | ok found =>
          rw [decoded] at advanced
          cases found with
          | some result =>
              cases advanced
              exact .decoded decoded
          | none =>
              cases advanced
              exact .waits decoded
  | frameType =>
      simp only [advance] at advanced
      cases taken : VarInt.read .earlyEof recv with
      | pending => simp [taken] at advanced
      | panicked => simp [taken] at advanced
      | done typ after =>
          rw [taken] at advanced
          cases advanced
          exact .typeRead taken
      | failed error =>
          rw [taken] at advanced
          cases advanced
          exact .typeFailed taken
  | frameLength typ =>
      simp only [advance] at advanced
      cases taken : VarInt.read .earlyEof recv with
      | pending => simp [taken] at advanced
      | panicked => simp [taken] at advanced
      | done length after =>
          rw [taken] at advanced
          dsimp only at advanced
          split at advanced
          case isTrue oversized =>
            cases advanced
            exact .oversized taken oversized
          case isFalse within =>
            cases advanced
            exact .lengthRead taken within
      | failed error =>
          rw [taken] at advanced
          cases advanced
          exact .lengthFailed taken
  | framePayload typ allocated =>
      cases taken : recv.readExact .earlyEof allocated with
      | pending => simp [advance, taken] at advanced
      | panicked => simp [advance, taken] at advanced
      | done payload after =>
          rw [advance_payload rfl taken] at advanced
          cases advanced
          exact .payloadRead taken
      | failed error =>
          simp only [advance, taken] at advanced
          cases advanced
          exact .payloadFailed taken

/-- Going on does not change what the reader makes of the call. -/
theorem outcome_advance {state next : State} (advanced : advance state = some next) :
    outcome next = outcome state := by
  obtain ⟨recv, pending, place⟩ := state
  cases advance_cases advanced with
  | decodeFailed failed => simp only [outcome, readCapsuleFrame_eq, failed]
  | decoded found => simp only [outcome, readCapsuleFrame_eq, found]
  | waits decoded =>
      change _ = readCapsuleFrame recv pending
      rw [readCapsuleFrame_eq, decoded]
      exact (readFrame_then recv pending).symm
  | typeRead taken => simp only [outcome, taken, Read.bind_done]
  | typeFailed taken => simp only [outcome, State.failed, taken, Read.bind_failed]
  | oversized taken large => simp only [outcome, lengthThen, taken, Read.bind_done, gt_iff_lt, if_pos large]
  | lengthRead taken within => simp only [outcome, lengthThen, taken, Read.bind_done, gt_iff_lt, if_neg within]
  | lengthFailed taken => simp only [outcome, State.failed, lengthThen, taken, Read.bind_failed]
  | payloadRead taken => simp only [outcome, payloadThen, taken, Read.bind_done]
  | payloadFailed taken => simp only [outcome, State.failed, payloadThen, taken, Read.bind_failed]

theorem run_advance {count : Nat} {state last : State}
    (ran : run step state (List.replicate count .advance) = some last) : outcome last = outcome state := by
  induction count generalizing state with
  | zero =>
      cases ran
      rfl
  | succ count ih =>
      rw [List.replicate_succ] at ran
      obtain ⟨next, advanced, ran⟩ := run_cons_eq_some ran
      exact (ih ran).trans (outcome_advance advanced)

/-- A call that is left to itself returns what the reader returns. -/
theorem call_returns {count : Nat} {state last : State} {result : Except CapsuleError Capsule}
    (ran : run step state (.call :: List.replicate count .advance) = some last)
    (returned : last.place = .idle (some result)) :
    readCapsuleFrame state.recv state.pending =
      match result with
      | .ok capsule => .done (capsule, last.pending) last.recv
      | .error error => .failed error := by
  obtain ⟨recv, pending, place⟩ := state
  cases place with
  | idle ended =>
      have begun : step ⟨recv, pending, .idle ended⟩ .call = some ⟨recv, pending, .decoding⟩ := rfl
      rw [run_cons_some begun] at ran
      have same := run_advance ran
      obtain ⟨after, behind, place⟩ := last
      cases returned
      cases result <;> exact same.symm
  | _ => cases ran

theorem incomplete_of_waits {pending : List UInt8} (waits : decodeBufferedCapsule pending = .ok none) :
    Incomplete pending := by
  rcases decodeBufferedCapsule_cases pending with ⟨incomplete, _⟩ | ⟨_, answers⟩
  · exact incomplete
  · rw [waits] at answers
    cases decoded : Capsule.decode pending <;> rw [decoded] at answers <;> cases answers

/-- The invariant: while a frame is read the buffer is a front part of one
record, and each frame adds at most its payload. -/
structure Bounded (state : State) : Prop where
  total : state.pending.length ≤ 1043 + 2048
  reading : state.place.Reading → state.pending.length ≤ 1043
  allocated : ∀ {typ length}, state.place = .framePayload typ length → length ≤ 2048

theorem bounded_idle {recv : RecvStream} {pending : List UInt8} {last : Option (Except CapsuleError Capsule)}
    (total : pending.length ≤ 1043 + 2048) : Bounded ⟨recv, pending, .idle last⟩ where
  total := total
  reading := False.elim
  allocated := by simp

theorem bounded_advance {state next : State} (bounded : Bounded state)
    (advanced : advance state = some next) : Bounded next := by
  obtain ⟨recv, pending, place⟩ := state
  have total := bounded.total
  cases advance_cases advanced with
  | decodeFailed failed => exact bounded_idle total
  | decoded found =>
      have shorter := decodeBufferedCapsule_length found
      exact bounded_idle (shorter.le.trans total)
  | waits decoded => exact ⟨total, fun _ => (incomplete_of_waits decoded).length_le, by simp⟩
  | typeRead taken => exact ⟨total, fun _ => bounded.reading trivial, by simp⟩
  | typeFailed taken => exact bounded_idle total
  | oversized taken large => exact bounded_idle total
  | lengthRead taken within =>
      refine ⟨total, fun _ => bounded.reading trivial, ?_⟩
      intro other allocated placed
      cases placed
      exact Nat.le_of_not_gt within
  | lengthFailed taken => exact bounded_idle total
  | @payloadRead typ allocated payload after taken =>
      have small : pending.length ≤ 1043 := bounded.reading trivial
      have within : allocated ≤ 2048 := bounded.allocated rfl
      obtain ⟨_, filled, _⟩ := ByteStream.readExact_eq_done taken
      have grown : (pendingAfter pending typ payload).length ≤ pending.length + payload.length := by
        rw [pendingAfter]
        split <;> simp
      have size : payload.length ≤ allocated := by
        rw [filled, List.length_take]
        exact Nat.min_le_left _ _
      refine ⟨?_, False.elim, by simp⟩
      dsimp only
      omega
  | payloadFailed taken => exact bounded_idle total

theorem bounded_step {state next : State} {event : Event} (bounded : Bounded state)
    (stepped : step state event = some next) : Bounded next := by
  cases event with
  | advance => exact bounded_advance bounded stepped
  | call =>
      obtain ⟨recv, pending, place⟩ := state
      cases place with
      | idle last =>
          cases stepped
          exact ⟨bounded.total, False.elim, by simp⟩
      | _ => cases stepped
  | cancelled taken =>
      obtain ⟨recv, pending, place⟩ := state
      cases place with
      | idle last => cases stepped
      | _ =>
          cases stepped
          exact bounded_idle bounded.total
  | arrives chunk =>
      simp only [step] at stepped
      split at stepped
      · cases stepped
        exact ⟨bounded.total, bounded.reading, bounded.allocated⟩
      · cases stepped
  | ends ending =>
      simp only [step] at stepped
      split at stepped
      · cases stepped
        exact ⟨bounded.total, bounded.reading, bounded.allocated⟩
      · cases stepped

/-- Whatever the stream holds and however its calls run, the buffer stays
bounded: one partial capsule while a frame is read, one payload more at any
time, and no payload is allocated beyond the frame limit. -/
theorem pending_bounded (recv : RecvStream) {events : List Event} {state : State}
    (ran : run step { recv } events = some state) :
    (state.place.Reading → state.pending.length ≤ 1043) ∧ state.pending.length ≤ 1043 + 2048 ∧
      ∀ typ length, state.place = .framePayload typ length → length ≤ 2048 := by
  have initial : Bounded { recv } := bounded_idle (Nat.zero_le _)
  have bounded := run_invariant bounded_step initial ran
  exact ⟨bounded.reading, bounded.total, fun _ _ => bounded.allocated⟩

/-- A DATA frame that ends inside a close capsule. -/
theorem pending_bounded_close :
    ∃ state, run step { recv := ⟨[[0x00, 0x03, 0x68, 0x43, 0x06]], .waiting⟩ }
        [.call, .advance, .advance, .advance, .advance, .advance] = some state ∧
      (state.place.Reading → state.pending.length ≤ 1043) ∧ state.pending.length ≤ 1043 + 2048 ∧
      ∀ typ length, state.place = .framePayload typ length → length ≤ 2048 := by
  obtain ⟨state, ran⟩ := Option.isSome_iff_exists.mp (show (run step
    { recv := ⟨[[0x00, 0x03, 0x68, 0x43, 0x06]], .waiting⟩ }
    [.call, .advance, .advance, .advance, .advance, .advance]).isSome = true by decide)
  exact ⟨state, ran, pending_bounded _ ran⟩

end Webtrans.Session.CapsuleCalls
