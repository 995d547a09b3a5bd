import Webtrans.Session.Connection

namespace Webtrans.Session

open Webtrans.Data Webtrans.Proto

/-! `closed` on the streams of both backends (`recv.rs`, `send.rs` and
`error.rs`): what code written against `webtrans-trait` learns of a stream that
the peer has finished, reset or stopped. -/

/-- What polling a future gives. -/
inductive Future (α : Type u) where
  | pending
  | panicked
  | ready (value : α)
deriving DecidableEq, Repr

namespace Future

def map {α : Type u} {β : Type v} (f : α → β) : Future α → Future β
  | pending => pending
  | panicked => panicked
  | ready value => ready (f value)

def bind {α : Type u} {β : Type v} (future : Future α) (next : α → Future β) : Future β :=
  match future with
  | pending => pending
  | panicked => panicked
  | ready value => next value

end Future

inductive ReadError (backend : Backend) where
  /-- Quion only. -/
  | transport (cause : String)
  | ofSessionError (error : SessionError backend)
  | reset (code : UInt32)
  | invalidReset (code : VarInt)
  | closedStream
  | illegalOrderedRead
deriving DecidableEq

inductive WriteError (backend : Backend) where
  /-- Quion only. -/
  | transport (cause : String)
  | stopped (code : UInt32)
  | invalidStopped (code : VarInt)
  | ofSessionError (error : SessionError backend)
  | closedStream
deriving DecidableEq

variable {backend : Backend}

namespace ReadError

def streamError : ReadError backend → Option UInt32
  | reset code => some code
  | _ => none

def sessionError : ReadError backend → Option (UInt32 × String)
  | ofSessionError error => error.sessionError
  | _ => none

end ReadError

namespace WriteError

def streamError : WriteError backend → Option UInt32
  | stopped code => some code
  | _ => none

def sessionError : WriteError backend → Option (UInt32 × String)
  | ofSessionError error => error.sessionError
  | _ => none

end WriteError

namespace Quinn

inductive ResetError where
  | connectionLost (error : ConnectionError .quinn)
  | zeroRttRejected

inductive StoppedError where
  | connectionLost (error : ConnectionError .quinn)
  | zeroRttRejected

/-- 0-RTT is not supported: its rejection is an `unreachable!`. -/
def receivedReset (inner : Except ResetError (Option VarInt)) :
    Future (Except (SessionError .quinn) (Option UInt32)) :=
  match inner with
  | .ok none => .ready (.ok none)
  | .ok (some code) => .ready (.ok (errorFromHttp3 code.intoInner))
  | .error (.connectionLost error) => .ready (.error (.fromConnectionError error))
  | .error .zeroRttRejected => .panicked

def RecvStream.closed (inner : Except ResetError (Option VarInt)) : Future (Except (ReadError .quinn) Unit) :=
  (receivedReset inner).map fun
    | .error error => .error (.ofSessionError error)
    | .ok _ => .ok ()

def stopped (stream : Except StoppedError (Option VarInt)) :
    Future (Except (SessionError .quinn) (Option UInt32)) :=
  match stream with
  | .ok (some code) => .ready (.ok (errorFromHttp3 code.intoInner))
  | .ok none => .ready (.ok none)
  | .error (.connectionLost error) => .ready (.error (.fromConnectionError error))
  | .error .zeroRttRejected => .panicked

def SendStream.closed (stream : Except StoppedError (Option VarInt)) :
    Future (Except (WriteError .quinn) Unit) :=
  (stopped stream).map fun
    | .error error => .error (.ofSessionError error)
    | .ok (some code) => .error (.stopped code)
    | .ok none => .ok ()

end Quinn

namespace Quion

/-- `quion::ReadError`; `other` stands for the cases that the conversion does
not look into. -/
inductive ReadError where
  | reset (code : VarInt)
  | connectionLost (error : ConnectionError .quion)
  | illegalOrderedState
  | other (cause : String)

inductive WriteError where
  | stopped (code : VarInt)
  | connectionLost (error : ConnectionError .quion)
  | other (cause : String)

def fromReadError : ReadError → Session.ReadError .quion
  | .reset code =>
      match errorFromHttp3 code.intoInner with
      | some code => .reset code
      | none => .invalidReset code
  | .connectionLost error => .ofSessionError (.fromConnectionError error)
  | .illegalOrderedState => .illegalOrderedRead
  | .other cause => .transport cause

def fromWriteError : WriteError → Session.WriteError .quion
  | .stopped code =>
      match errorFromHttp3 code.intoInner with
      | some code => .stopped code
      | none => .invalidStopped code
  | .connectionLost error => .ofSessionError (.fromConnectionError error)
  | .other cause => .transport cause

def receivedReset (inner : Except ReadError (Option VarInt)) :
    Except (Session.ReadError .quion) (Option UInt32) :=
  match inner with
  | .ok code => .ok (code.bind fun code => errorFromHttp3 code.intoInner)
  | .error error => .error (fromReadError error)

def RecvStream.closed (inner : Except ReadError (Option VarInt)) : Except (Session.ReadError .quion) Unit :=
  match receivedReset inner with
  | .error error => .error error
  | .ok (some code) => .error (.reset code)
  | .ok none => .ok ()

def stopped (stream : Except WriteError (Option VarInt)) :
    Except (Session.WriteError .quion) (Option UInt32) :=
  match stream with
  | .ok code => .ok (code.bind fun code => errorFromHttp3 code.intoInner)
  | .error error => .error (fromWriteError error)

def SendStream.closed (stream : Except WriteError (Option VarInt)) : Except (Session.WriteError .quion) Unit :=
  match stopped stream with
  | .error error => .error error
  | .ok (some code) => .error (.stopped code)
  | .ok none => .ok ()

end Quion

inductive Direction where
  | recv
  | send
deriving DecidableEq, Repr

/-- What the transport's `received_reset` or `stopped` may fail with. -/
abbrev TransportError : Backend → Direction → Type
  | .quinn, .recv => Quinn.ResetError
  | .quinn, .send => Quinn.StoppedError
  | .quion, .recv => Quion.ReadError
  | .quion, .send => Quion.WriteError

def TransportError.connectionLost :
    (backend : Backend) → (direction : Direction) → ConnectionError backend → TransportError backend direction
  | .quinn, .recv, error => Quinn.ResetError.connectionLost error
  | .quinn, .send, error => Quinn.StoppedError.connectionLost error
  | .quion, .recv, error => Quion.ReadError.connectionLost error
  | .quion, .send, error => Quion.WriteError.connectionLost error

/-- An error as `webtrans_trait::Error` shows it. -/
structure ErrorView where
  streamError : Option UInt32
  sessionError : Option (UInt32 × String)
deriving DecidableEq, Repr

def ReadError.view (error : ReadError backend) : ErrorView := ⟨error.streamError, error.sessionError⟩
def WriteError.view (error : WriteError backend) : ErrorView := ⟨error.streamError, error.sessionError⟩

/-- `closed` of the trait, on the transport's answer. -/
def traitClosed : (backend : Backend) → (direction : Direction) →
    Except (TransportError backend direction) (Option VarInt) → Future (Except ErrorView Unit)
  | .quinn, .recv, answer => (Quinn.RecvStream.closed answer).map (·.mapError ReadError.view)
  | .quinn, .send, answer => (Quinn.SendStream.closed answer).map (·.mapError WriteError.view)
  | .quion, .recv, answer => .ready ((Quion.RecvStream.closed answer).mapError ReadError.view)
  | .quion, .send, answer => .ready ((Quion.SendStream.closed answer).mapError WriteError.view)

/-- How the peer has ended a stream: by a reset or a stop, by an end of the
data that both sides have seen, or with the connection. -/
inductive StreamEnd (backend : Backend) where
  | aborted (code : VarInt)
  | graceful
  | lost (error : ConnectionError backend)

def StreamEnd.answer (direction : Direction) :
    StreamEnd backend → Except (TransportError backend direction) (Option VarInt)
  | aborted code => .ok (some code)
  | graceful => .ok none
  | lost error => .error (.connectionLost backend direction error)

/-- A transport's stream: how the peer's actions have ended it, and what
`received_reset` or `stopped` answers then. -/
structure Transport (backend : Backend) (direction : Direction) (Action : Type) where
  ended : List Action → Option (StreamEnd backend)
  answer : List Action → Future (Except (TransportError backend direction) (Option VarInt))
  pending : ∀ {actions}, ended actions = none → answer actions = .pending
  answered : ∀ {actions result}, ended actions = some result → answer actions = .ready (result.answer direction)

namespace Transport

variable {direction : Direction} {Action : Type}

def closed (transport : Transport backend direction Action) (actions : List Action) :
    Future (Except ErrorView Unit) :=
  (transport.answer actions).bind (traitClosed backend direction)

/-- After a reset or stop with a code, `closed` fails and tells that code; it
succeeds only after a graceful end. -/
def ReportsAborts (transport : Transport backend direction Action) (actions : List Action) : Prop :=
  (∀ code, transport.ended actions = some (.aborted code) →
    ∃ error, transport.closed actions = .ready (.error error) ∧
      error.streamError = errorFromHttp3 code.intoInner) ∧
  (transport.closed actions = .ready (.ok ()) → transport.ended actions = some .graceful)

/-- Quinn's receive stream drops the code, and no stream tells a code outside
the WebTransport range. -/
def tells (backend : Backend) (direction : Direction) (code : VarInt) : Option UInt32 :=
  match backend, direction with
  | .quinn, .recv => none
  | _, _ => errorFromHttp3 code.intoInner

theorem errorFromHttp3_of_tells {code : VarInt} {told : UInt32}
    (telling : tells backend direction code = some told) : errorFromHttp3 code.intoInner = some told := by
  cases backend with
  | quion => exact telling
  | quinn =>
      cases direction with
      | recv => cases telling
      | send => exact telling

theorem closed_aborted {transport : Transport backend direction Action} {actions : List Action} {code : VarInt}
    (ended : transport.ended actions = some (.aborted code)) :
    transport.closed actions =
      match tells backend direction code with
      | some told => .ready (.error ⟨some told, none⟩)
      | none => .ready (.ok ()) := by
  rw [closed, transport.answered ended]
  cases mapped : errorFromHttp3 code.intoInner <;> cases backend <;> cases direction <;>
    simp [StreamEnd.answer, Future.bind, traitClosed, Quinn.RecvStream.closed, Quinn.SendStream.closed,
      Quinn.receivedReset, Quinn.stopped, Quion.RecvStream.closed, Quion.SendStream.closed,
      Quion.receivedReset, Quion.stopped, tells, mapped, Future.map, Except.mapError, ReadError.view, WriteError.view,
      ReadError.streamError, WriteError.streamError, ReadError.sessionError, WriteError.sessionError]

theorem closed_graceful {transport : Transport backend direction Action} {actions : List Action}
    (ended : transport.ended actions = some .graceful) : transport.closed actions = .ready (.ok ()) := by
  rw [closed, transport.answered ended]
  cases backend <;> cases direction <;> rfl

theorem closed_lost {transport : Transport backend direction Action} {actions : List Action}
    {error : ConnectionError backend} (ended : transport.ended actions = some (.lost error)) :
    transport.closed actions =
      .ready (.error ⟨none, (SessionError.fromConnectionError error).sessionError⟩) := by
  rw [closed, transport.answered ended]
  cases backend <;> cases direction <;> rfl

theorem closed_pending {transport : Transport backend direction Action} {actions : List Action}
    (ended : transport.ended actions = none) : transport.closed actions = .pending := by
  rw [closed, transport.pending ended]
  rfl

/-- One implementation reports an abort exactly when it tells its code. -/
theorem reportsAborts_iff (transport : Transport backend direction Action) (actions : List Action) :
    transport.ReportsAborts actions ↔
      ∀ code, transport.ended actions = some (.aborted code) → tells backend direction code ≠ none := by
  constructor
  · intro reports code ended untold
    obtain ⟨error, failed, _⟩ := reports.1 code ended
    rw [closed_aborted ended, untold] at failed
    cases failed
  · intro told
    refine ⟨fun code ended => ?_, fun succeeded => ?_⟩
    · obtain ⟨found, telling⟩ := Option.ne_none_iff_exists'.mp (told code ended)
      refine ⟨⟨some found, none⟩, ?_, (errorFromHttp3_of_tells telling).symm⟩
      rw [closed_aborted ended, telling]
    · cases ended : transport.ended actions with
      | none =>
          rw [closed_pending ended] at succeeded
          cases succeeded
      | some result =>
          cases result with
          | graceful => rfl
          | lost error =>
              rw [closed_lost ended] at succeeded
              cases succeeded
          | aborted code =>
              obtain ⟨found, telling⟩ := Option.ne_none_iff_exists'.mp (told code ended)
              rw [closed_aborted ended, telling] at succeeded
              cases succeeded

end Transport

/-- The peer has ended the streams of both backends in the same way. -/
inductive SameEnd : Option (StreamEnd .quinn) → Option (StreamEnd .quion) → Prop where
  | unended : SameEnd none none
  | aborted (code : VarInt) : SameEnd (some (.aborted code)) (some (.aborted code))
  | graceful : SameEnd (some .graceful) (some .graceful)
  | closedWith (errorCode : VarInt) (reason : List UInt8) :
      SameEnd (some (.lost (.applicationClosed errorCode reason)))
        (some (.lost (.applicationClosed errorCode (fromUtf8Lossy reason))))
  | locallyClosed : SameEnd (some (.lost .locallyClosed)) (some (.lost .locallyClosed))
  | other (left right : String) : SameEnd (some (.lost (.other left))) (some (.lost (.other right)))

/-- Both native backends report an aborted stream, and alike, exactly when the
stream is one to send on and the code is in the WebTransport range. -/
theorem closed_alike_iff {direction : Direction} {Action : Type} {quinn : Transport .quinn direction Action}
    {quion : Transport .quion direction Action}
    (same : ∀ actions, SameEnd (quinn.ended actions) (quion.ended actions)) (actions : List Action) :
    (quinn.ReportsAborts actions ∧ quion.ReportsAborts actions ∧ quinn.closed actions = quion.closed actions) ↔
      ∀ code, quinn.ended actions = some (.aborted code) →
        direction = .send ∧ errorFromHttp3 code.intoInner ≠ none := by
  rw [Transport.reportsAborts_iff, Transport.reportsAborts_iff]
  have ends := same actions
  generalize quinnEnd : quinn.ended actions = left at ends ⊢
  generalize quionEnd : quion.ended actions = right at ends ⊢
  cases ends with
  | unended => simp [Transport.closed_pending quinnEnd, Transport.closed_pending quionEnd]
  | graceful => simp [Transport.closed_graceful quinnEnd, Transport.closed_graceful quionEnd]
  | closedWith errorCode reason =>
      rw [Transport.closed_lost quinnEnd, Transport.closed_lost quionEnd]
      cases mapped : errorFromHttp3 errorCode.intoInner <;>
        simp [SessionError.fromConnectionError, SessionError.sessionError, mapped, Backend.reasonText]
  | locallyClosed =>
      rw [Transport.closed_lost quinnEnd, Transport.closed_lost quionEnd]
      simp [SessionError.fromConnectionError, SessionError.sessionError]
  | other cause otherCause =>
      rw [Transport.closed_lost quinnEnd, Transport.closed_lost quionEnd]
      simp [SessionError.fromConnectionError, SessionError.sessionError]
  | aborted code =>
      rw [Transport.closed_aborted quinnEnd, Transport.closed_aborted quionEnd]
      cases direction with
      | recv => simp [Transport.tells]
      | send => simp [Transport.tells]

inductive PeerAction where
  | data (bytes : List UInt8)
  | finish
  | abort (code : VarInt)

def PeerAction.ending (backend : Backend) : PeerAction → Option (StreamEnd backend)
  | data _ => none
  | finish => some .graceful
  | abort code => some (.aborted code)

def answerOf (direction : Direction) :
    Option (StreamEnd backend) → Future (Except (TransportError backend direction) (Option VarInt))
  | none => .pending
  | some result => .ready (result.answer direction)

/-- A stream that the first action other than data ends. -/
def endsFirst (backend : Backend) (direction : Direction) : Transport backend direction PeerAction where
  ended actions := actions.findSome? (PeerAction.ending backend)
  answer actions := answerOf direction (actions.findSome? (PeerAction.ending backend))
  pending ended := congrArg (answerOf direction) ended
  answered ended := congrArg (answerOf direction) ended

theorem sameEnd_endsFirst (actions : List PeerAction) :
    SameEnd (actions.findSome? (PeerAction.ending .quinn)) (actions.findSome? (PeerAction.ending .quion)) := by
  induction actions with
  | nil => exact .unended
  | cons action actions ih =>
      cases action with
      | data bytes => exact ih
      | finish => exact .graceful
      | abort code => exact .aborted code

/-- A stream that the peer has finished. -/
theorem closed_alike_iff_finish :
    ((endsFirst .quinn .recv).ReportsAborts [.data [0x01], .finish] ∧
        (endsFirst .quion .recv).ReportsAborts [.data [0x01], .finish] ∧
        (endsFirst .quinn .recv).closed [.data [0x01], .finish] =
          (endsFirst .quion .recv).closed [.data [0x01], .finish]) ↔
      ∀ code, (endsFirst .quinn .recv).ended [.data [0x01], .finish] = some (.aborted code) →
        Direction.recv = .send ∧ errorFromHttp3 code.intoInner ≠ none :=
  @closed_alike_iff .recv PeerAction (endsFirst .quinn .recv) (endsFirst .quion .recv) sameEnd_endsFirst
    [.data [0x01], .finish]

/-- A receive stream reset with code 42: Quinn's `closed` succeeds, Quion's
tells the code.  With a code outside the WebTransport range both succeed. -/
theorem closed_reset :
    let reset : PeerAction := .abort ⟨errorToHttp3 42, errorToHttp3_lt 42⟩
    (endsFirst .quinn .recv).closed [reset] = .ready (.ok ()) ∧
      (endsFirst .quion .recv).closed [reset] = .ready (.error ⟨some 42, none⟩) ∧
      ¬ (endsFirst .quinn .recv).ReportsAborts [reset] ∧
      (endsFirst .quion .send).closed [.abort ⟨0, by decide⟩] = .ready (.ok ()) := by
  have succeeds : (endsFirst .quinn .recv).closed [.abort ⟨errorToHttp3 42, errorToHttp3_lt 42⟩] =
      .ready (.ok ()) := rfl
  refine ⟨succeeds, rfl, fun reports => ?_, rfl⟩
  have graceful := reports.2 succeeds
  cases graceful

end Webtrans.Session
