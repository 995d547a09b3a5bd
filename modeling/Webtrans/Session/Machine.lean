import Webtrans.Session.CapsuleReader
import Webtrans.Session.Connection

namespace Webtrans.Session

open Webtrans.Data Webtrans.Proto

/-! The session as a state machine: the background task of `Session::new`
(Quinn) and `Session::with_driver` (Quion), `run_closed`, the handles that call
`close`, `closed` and `close_reason`, the peer's bytes on the CONNECT stream
and the loss of the connection.  Every event is one step that no other party
can interrupt; the parties' steps come in any order.  The connection is held
open by others than the session: that Quinn closes it when its last handle is
dropped is left out. -/

abbrev RunClosed := Except CapsuleError (Option (UInt32 × String))

/-- Where the background task stands. -/
inductive Task where
  | select
  /-- `run_closed` sends the capsule of a close command and waits for the peer. -/
  | sending (close : CloseCommand) (written : Bool)
  /-- `run_closed` has returned and dropped the receiver of close commands. -/
  | returned (result : RunClosed)
  /-- Quion has stored the code and reason. -/
  | recorded (code : UInt32) (reason : String)
  /-- The connection was found open and is closed next. -/
  | closing (code : UInt32) (reason : String)
  | handled
  /-- Quion found the connection still open behind that. -/
  | closingEnded
  | settling
  | done
deriving DecidableEq

def Task.receiving : Task → Bool
  | select | sending _ _ => true
  | _ => false

structure State (backend : Backend) where
  /-- The connection's own close reason: set once, by the first cause. -/
  connReason : Option (ConnectionError backend) := none
  /-- The close that this session has made take effect, if any. -/
  ownClose : Option (VarInt × List UInt8) := none
  handles : Nat := 1
  /-- The channel of close commands has room for one. -/
  queue : Option CloseCommand := none
  /-- Calls of `close` that found the channel closed and have yet to close the
  connection. -/
  closers : List (UInt32 × List UInt8) := []
  recv : RecvStream := ⟨[], .waiting⟩
  pending : List UInt8 := []
  sent : List UInt8 := []
  /-- The code of the CLOSE capsule that was received or sent. -/
  exchanged : Option UInt32 := none
  task : Task := .select
  closeError : Option (SessionError backend) := none
  /-- Every result that `closed` and `close_reason` have given on any handle. -/
  reported : List (SessionError backend) := []
deriving DecidableEq

inductive Event (backend : Backend) where
  /-- `close` on a handle, up to its `try_send`. -/
  | requestClose (code : UInt32) (reason : List UInt8)
  /-- A call of `close` that found the channel closed closes the connection. -/
  | fallback (caller : Nat)
  | cloneHandle
  | dropHandle
  /-- `close_reason`, or a poll of `closed`, on a handle. -/
  | observe
  /-- The connection is closed by a cause outside the session. -/
  | lost (error : ConnectionError backend)
  | deliver (chunk : List UInt8)
  | finish
  | reset (error : IoError)
  | readCapsule
  | takeClose
  | capsuleWritten
  /-- The peer acknowledged, the write failed, or five seconds passed. -/
  | closeDone
  /-- One step of the background task behind `run_closed`. -/
  | advance

variable {backend : Backend}

namespace State

/-- `conn.close`: only the first close of a connection is sent to the peer. -/
def closeConnection (s : State backend) (code : UInt32) (reason : List UInt8) : State backend :=
  match s.connReason with
  | some error => { s with connReason := some error.closedAgain }
  | none => { s with connReason := some .locallyClosed, ownClose := some (closeCode code, reason) }

theorem closeConnection_open {s : State backend} (isOpen : s.connReason = none) (code : UInt32)
    (reason : List UInt8) :
    s.closeConnection code reason =
      { s with connReason := some .locallyClosed, ownClose := some (closeCode code, reason) } := by
  simp only [closeConnection, isOpen]

theorem closeConnection_closed {s : State backend} {error : ConnectionError backend}
    (closed : s.connReason = some error) (code : UInt32) (reason : List UInt8) :
    s.closeConnection code reason = { s with connReason := some error.closedAgain } := by
  simp only [closeConnection, closed]

/-- `closed` and `close_reason` answer from the same state: the first waits
until there is an answer. -/
def closeReason (s : State backend) : Option (SessionError backend) :=
  match backend with
  | .quinn => s.connReason.map SessionError.fromConnectionError
  | .quion => s.closeError <|> s.connReason.map SessionError.fromConnectionError

theorem closeReason_congr {s t : State backend} (connection : t.connReason = s.connReason)
    (stored : t.closeError = s.closeError) : t.closeReason = s.closeReason := by
  cases backend <;> simp only [closeReason, connection, stored]

@[simp] theorem task_closeConnection (s : State backend) (code : UInt32) (reason : List UInt8) :
    (s.closeConnection code reason).task = s.task := by
  rw [closeConnection]
  split <;> rfl

@[simp] theorem closers_closeConnection (s : State backend) (code : UInt32) (reason : List UInt8) :
    (s.closeConnection code reason).closers = s.closers := by
  rw [closeConnection]
  split <;> rfl

@[simp] theorem exchanged_closeConnection (s : State backend) (code : UInt32) (reason : List UInt8) :
    (s.closeConnection code reason).exchanged = s.exchanged := by
  rw [closeConnection]
  split <;> rfl

@[simp] theorem closeError_closeConnection (s : State backend) (code : UInt32) (reason : List UInt8) :
    (s.closeConnection code reason).closeError = s.closeError := by
  rw [closeConnection]
  split <;> rfl

@[simp] theorem reported_closeConnection (s : State backend) (code : UInt32) (reason : List UInt8) :
    (s.closeConnection code reason).reported = s.reported := by
  rw [closeConnection]
  split <;> rfl

@[simp] theorem connReason_closeConnection (s : State backend) (code : UInt32) (reason : List UInt8) :
    (s.closeConnection code reason).connReason =
      some ((s.connReason.map ConnectionError.closedAgain).getD .locallyClosed) := by
  cases closed : s.connReason <;> simp [closeConnection, closed]

def requestClose (s : State backend) (code : UInt32) (reason : List UInt8) : State backend :=
  if s.task.receiving then
    match s.queue with
    | none => { s with queue := some ⟨code, queuedReason reason⟩ }
    | some _ => s
  else { s with closers := s.closers ++ [(code, reason)] }

def readCapsule (s : State backend) : Option (State backend) :=
  match readCapsuleFrame s.recv s.pending with
  | .pending => none
  | .panicked => none
  | .failed error =>
      if isGracefulClose error then some { s with task := .returned (.ok none) }
      else some { s with task := .returned (.error error) }
  | .done (.closeWebTransportSession code reason, pending) recv =>
      some { s with recv, pending, exchanged := some code, task := .returned (.ok (some (code, reason))) }
  | .done (.unknown _ _, pending) recv => some { s with recv, pending }

def takeClose (s : State backend) : Option (State backend) :=
  match s.queue with
  | some close => some { s with queue := none, task := .sending close false }
  | none =>
      if s.handles = 0 then
        some { s with task := .returned (.ok (some (0, "last session handle dropped"))) }
      else none

def afterResult (backend : Backend) : Task :=
  match backend with
  | .quinn => .done
  | .quion => .handled

/-- `if conn.close_reason().is_none()` in front of a close. -/
def checkOpen (s : State backend) (code : UInt32) (reason : String) : State backend :=
  { s with task := if s.connReason.isNone then .closing code reason else afterResult backend }

def advance (s : State backend) : Option (State backend) :=
  match s.task with
  | .select | .sending _ _ | .done => none
  | .returned (.ok (some (code, reason))) =>
      match backend with
      | .quinn => some (s.checkOpen code reason)
      | .quion =>
          some { s with
            closeError := some (.webTransportError (.closed code reason)), task := .recorded code reason }
  | .recorded code reason => some (s.checkOpen code reason)
  | .returned (.ok none) => some { s with task := afterResult backend }
  | .returned (.error error) =>
      if isGracefulClose error then some { s with task := afterResult backend }
      else some (s.checkOpen 1 "capsule error")
  | .closing code reason =>
      some { s.closeConnection code (asBytes reason) with task := afterResult backend }
  | .handled => some { s with task := if s.connReason.isNone then .closingEnded else .settling }
  | .closingEnded => some { s.closeConnection 0 (asBytes "CONNECT stream ended") with task := .settling }
  | .settling =>
      some { s with
        closeError := s.closeError <|> s.connReason.map SessionError.fromConnectionError, task := .done }

end State

def step (s : State backend) : Event backend → Option (State backend)
  | .requestClose code reason => if s.handles = 0 then none else some (s.requestClose code reason)
  | .fallback caller =>
      match s.closers[caller]? with
      | none => none
      | some (code, reason) =>
          some ({ s with closers := s.closers.eraseIdx caller }.closeConnection code reason)
  | .cloneHandle => if s.handles = 0 then none else some { s with handles := s.handles + 1 }
  | .dropHandle =>
      -- A call of `close` borrows its handle.
      if s.handles = 0 || s.handles = 1 && !s.closers.isEmpty then none
      else some { s with handles := s.handles - 1 }
  | .observe =>
      if s.handles = 0 then none
      else
        match s.closeReason with
        | none => some s
        | some error => some { s with reported := s.reported ++ [error] }
  | .lost error =>
      match s.connReason with
      | none => some { s with connReason := some error }
      | some _ => none
  | .deliver chunk =>
      if s.recv.ending = .waiting then
        some { s with recv := { s.recv with chunks := s.recv.chunks ++ [chunk] } }
      else none
  | .finish =>
      if s.recv.ending = .waiting then some { s with recv := { s.recv with ending := .finished } }
      else none
  | .reset error =>
      if s.recv.ending = .waiting then some { s with recv := { s.recv with ending := .failed error } }
      else none
  | .readCapsule => if s.task = .select then s.readCapsule else none
  | .takeClose => if s.task = .select then s.takeClose else none
  | .capsuleWritten =>
      match s.task with
      | .sending close false =>
          match writeCapsuleFrame close.capsule with
          | .error _ => none
          | .ok frame =>
              some { s with
                sent := s.sent ++ frame, exchanged := some close.code, task := .sending close true }
      | _ => none
  | .closeDone =>
      match s.task with
      | .sending close _ =>
          some { s with task := .returned (.ok (some (close.code, capsuleReason close.reason))) }
      | _ => none
  | .advance => s.advance

/-- A new session: one handle, an open connection, nothing read. -/
def start (backend : Backend) : State backend := {}

/-- The task closes the connection next, with this code and reason, if it is
still open. -/
def Checks (backend : Backend) (task : Task) (code : UInt32) (reason : String) : Prop :=
  (backend = .quinn ∧ task = .returned (.ok (some (code, reason)))) ∨ task = .recorded code reason ∨
    ∃ error, task = .returned (.error error) ∧ isGracefulClose error = false ∧
      code = 1 ∧ reason = "capsule error"

/-- `run_closed` has ended in a way that the task takes for the end of the
CONNECT stream. -/
def EndsGracefully (task : Task) : Prop :=
  task = .returned (.ok none) ∨ ∃ error, task = .returned (.error error) ∧ isGracefulClose error = true

/-- The event belongs to a handle, to the peer's stream or to the reader, and
changes no more than these. -/
def Event.quiet : Event backend → Bool
  | fallback _ | lost _ | advance => false
  | _ => true

/-- The effects of a step, by the part of the session that takes it. -/
inductive Moves : State backend → Event backend → State backend → Prop where
  | quiet {s : State backend} {event : Event backend} (handles : Nat) (queue : Option CloseCommand)
      (recv : RecvStream) (pending : List UInt8) (quiet : event.quiet = true) :
      Moves s event { s with handles, queue, recv, pending }
  | refused {s : State backend} {code : UInt32} {reason : List UInt8} (dropped : s.task.receiving = false) :
      Moves s (.requestClose code reason) { s with closers := s.closers ++ [(code, reason)] }
  | fallback {s : State backend} {caller : Nat} {code : UInt32} {reason : List UInt8}
      (call : s.closers[caller]? = some (code, reason)) :
      Moves s (.fallback caller)
        ({ s with closers := s.closers.eraseIdx caller }.closeConnection code reason)
  | observed {s : State backend} {error : SessionError backend} (seen : s.closeReason = some error) :
      Moves s .observe { s with reported := s.reported ++ [error] }
  | lost {s : State backend} {error : ConnectionError backend} (isOpen : s.connReason = none) :
      Moves s (.lost error) { s with connReason := some error }
  | received {s : State backend} {code : UInt32} {reason : String} {pending : List UInt8}
      {recv : RecvStream} (selecting : s.task = .select)
      (read : readCapsuleFrame s.recv s.pending =
        .done (.closeWebTransportSession code reason, pending) recv) :
      Moves s .readCapsule { s with
        recv, pending, exchanged := some code, task := .returned (.ok (some (code, reason))) }
  | readerEnded {s : State backend} {result : RunClosed} (selecting : s.task = .select)
      (ended : ∀ close, result ≠ .ok (some close)) :
      Moves s .readCapsule { s with task := .returned result }
  | taken {s : State backend} {close : CloseCommand} (selecting : s.task = .select) :
      Moves s .takeClose { s with queue := none, task := .sending close false }
  | handlesGone {s : State backend} (selecting : s.task = .select) :
      Moves s .takeClose { s with
        task := .returned (.ok (some (0, "last session handle dropped"))) }
  | written {s : State backend} {close : CloseCommand} {frame : List UInt8}
      (sending : s.task = .sending close false) :
      Moves s .capsuleWritten { s with
        sent := s.sent ++ frame, exchanged := some close.code, task := .sending close true }
  | closeDone {s : State backend} {close : CloseCommand} {written : Bool}
      (sending : s.task = .sending close written) :
      Moves s .closeDone { s with
        task := .returned (.ok (some (close.code, capsuleReason close.reason))) }
  | stored {s : State backend} {code : UInt32} {reason : String} (quion : backend = .quion)
      (returned : s.task = .returned (.ok (some (code, reason)))) :
      Moves s .advance { s with
        closeError := some (.webTransportError (.closed code reason)), task := .recorded code reason }
  | checked {s : State backend} {code : UInt32} {reason : String}
      (checks : Checks backend s.task code reason) : Moves s .advance (s.checkOpen code reason)
  | graceful {s : State backend} (ends : EndsGracefully s.task) :
      Moves s .advance { s with task := State.afterResult backend }
  | closing {s : State backend} {code : UInt32} {reason : String} (closing : s.task = .closing code reason) :
      Moves s .advance
        { s.closeConnection code (asBytes reason) with task := State.afterResult backend }
  | handled {s : State backend} (handled : s.task = .handled) :
      Moves s .advance { s with task := if s.connReason.isNone then .closingEnded else .settling }
  | closingEnded {s : State backend} (closing : s.task = .closingEnded) :
      Moves s .advance
        { s.closeConnection 0 (asBytes "CONNECT stream ended") with task := .settling }
  | settled {s : State backend} (settling : s.task = .settling) :
      Moves s .advance { s with
        closeError := s.closeError <|> s.connReason.map SessionError.fromConnectionError, task := .done }

theorem moves_of_requestClose (s : State backend) (code : UInt32) (reason : List UInt8) :
    Moves s (.requestClose code reason) (s.requestClose code reason) := by
  rw [State.requestClose]
  cases alive : s.task.receiving with
  | false => exact .refused alive
  | true =>
      cases queued : s.queue with
      | none => exact .quiet s.handles (some ⟨code, queuedReason reason⟩) s.recv s.pending rfl
      | some close => exact .quiet s.handles s.queue s.recv s.pending rfl

theorem moves_of_readCapsule {s t : State backend} (selecting : s.task = .select)
    (stepped : s.readCapsule = some t) : Moves s .readCapsule t := by
  rw [State.readCapsule] at stepped
  split at stepped
  · cases stepped
  · cases stepped
  · rename_i error _
    cases graceful : isGracefulClose error with
    | true =>
        simp only [graceful, if_true, Option.some.injEq] at stepped
        subst stepped
        exact .readerEnded selecting (by simp)
    | false =>
        simp only [graceful, Bool.false_eq_true, if_false, Option.some.injEq] at stepped
        subst stepped
        exact .readerEnded selecting (by simp)
  · rename_i read
    cases stepped
    exact .received selecting read
  · cases stepped
    exact .quiet s.handles s.queue _ _ rfl

theorem moves_of_takeClose {s t : State backend} (selecting : s.task = .select)
    (stepped : s.takeClose = some t) : Moves s .takeClose t := by
  rw [State.takeClose] at stepped
  split at stepped
  · cases stepped
    exact .taken selecting
  · split at stepped
    · cases stepped
      exact .handlesGone selecting
    · cases stepped

theorem moves_of_advance {s t : State backend} (stepped : s.advance = some t) : Moves s .advance t := by
  rw [State.advance] at stepped
  split at stepped
  case h_1 | h_2 | h_3 => cases stepped
  case h_4 returned =>
    cases backend with
    | quinn =>
        cases stepped
        exact .checked (.inl ⟨rfl, returned⟩)
    | quion =>
        cases stepped
        exact .stored rfl returned
  case h_5 recorded =>
    cases stepped
    exact .checked (.inr (.inl recorded))
  case h_6 returned =>
    cases stepped
    exact .graceful (.inl returned)
  case h_7 error returned =>
    cases graceful : isGracefulClose error with
    | true =>
        simp only [graceful, if_true, Option.some.injEq] at stepped
        subst stepped
        exact .graceful (.inr ⟨error, returned, graceful⟩)
    | false =>
        simp only [graceful, Bool.false_eq_true, if_false, Option.some.injEq] at stepped
        subst stepped
        exact .checked (.inr (.inr ⟨error, returned, graceful, rfl, rfl⟩))
  case h_8 closing =>
    cases stepped
    exact .closing closing
  case h_9 handled =>
    cases stepped
    exact .handled handled
  case h_10 closing =>
    cases stepped
    exact .closingEnded closing
  case h_11 settling =>
    cases stepped
    exact .settled settling

theorem moves_of_step {s t : State backend} {event : Event backend} (stepped : step s event = some t) :
    Moves s event t := by
  cases event with
  | requestClose code reason =>
      simp only [step] at stepped
      split at stepped <;> cases stepped
      exact moves_of_requestClose s code reason
  | fallback caller =>
      simp only [step] at stepped
      split at stepped <;> cases stepped
      rename_i call
      exact .fallback call
  | cloneHandle =>
      simp only [step] at stepped
      split at stepped <;> cases stepped
      exact .quiet (s.handles + 1) s.queue s.recv s.pending rfl
  | dropHandle =>
      simp only [step] at stepped
      split at stepped <;> cases stepped
      exact .quiet (s.handles - 1) s.queue s.recv s.pending rfl
  | observe =>
      simp only [step] at stepped
      split at stepped
      · cases stepped
      · split at stepped <;> cases stepped
        · exact .quiet s.handles s.queue s.recv s.pending rfl
        · rename_i seen
          exact .observed seen
  | lost error =>
      simp only [step] at stepped
      split at stepped <;> cases stepped
      rename_i isOpen
      exact .lost isOpen
  | deliver chunk =>
      simp only [step] at stepped
      split at stepped <;> cases stepped
      exact .quiet s.handles s.queue _ s.pending rfl
  | finish =>
      simp only [step] at stepped
      split at stepped <;> cases stepped
      exact .quiet s.handles s.queue _ s.pending rfl
  | reset error =>
      simp only [step] at stepped
      split at stepped <;> cases stepped
      exact .quiet s.handles s.queue _ s.pending rfl
  | readCapsule =>
      simp only [step] at stepped
      split at stepped
      · rename_i selecting
        exact moves_of_readCapsule selecting stepped
      · cases stepped
  | takeClose =>
      simp only [step] at stepped
      split at stepped
      · rename_i selecting
        exact moves_of_takeClose selecting stepped
      · cases stepped
  | capsuleWritten =>
      simp only [step] at stepped
      split at stepped
      · rename_i sending
        split at stepped <;> cases stepped
        exact .written sending
      · cases stepped
  | closeDone =>
      simp only [step] at stepped
      split at stepped <;> cases stepped
      rename_i sending
      exact .closeDone sending
  | advance => exact moves_of_advance stepped

/-- A closed connection stays closed. -/
theorem closed_stays {s t : State backend} {event : Event backend} (closed : s.connReason ≠ none)
    (stepped : step s event = some t) : t.connReason ≠ none := by
  cases moves_of_step stepped with
  | lost _ | fallback _ | closing _ | closingEnded _ => simp
  | _ => exact closed

end Webtrans.Session
