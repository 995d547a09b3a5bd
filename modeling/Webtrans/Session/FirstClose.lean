import Webtrans.Data.Transition
import Webtrans.Session.CloseCapsule

namespace Webtrans.Session

open Webtrans.Data Webtrans.Proto

/-! Of all calls of `close` the background task carries out the first one that
was queued. -/

variable {backend : Backend}

/-- The call of `close` finds the channel open and empty. -/
def Queues (s : State backend) (event : Event backend) (close : CloseCommand) : Prop :=
  ∃ code reason, event = .requestClose code reason ∧ s.task.receiving = true ∧ s.queue = none ∧
    close = ⟨code, queuedReason reason⟩

def Unqueued (s : State backend) (event : Event backend) : Prop :=
  ∀ close, ¬ Queues s event close

/-- The task takes a close command from the channel, or is done with one. -/
def Event.handsOver : Event backend → Bool
  | takeClose | closeDone => true
  | _ => false

/-- What a step does with close commands, on their way from the callers to the
peer. -/
inductive Passes (s : State backend) : Event backend → State backend → Prop where
  | kept {event : Event backend} {t : State backend} (other : event.handsOver = false)
      (unqueued : Unqueued s event) (task : t.task = s.task) (queue : t.queue = s.queue)
      (sent : t.sent = s.sent) : Passes s event t
  | queued {event : Event backend} {close : CloseCommand} (queues : Queues s event close) :
      Passes s event { s with queue := some close }
  | taken {close : CloseCommand} (selecting : s.task = .select) (held : s.queue = some close) :
      Passes s .takeClose { s with queue := none, task := .sending close false }
  | handlesGone (selecting : s.task = .select) (empty : s.queue = none) :
      Passes s .takeClose { s with
        task := .returned (.ok (some (0, "last session handle dropped"))) }
  | written {close : CloseCommand} {frame : List UInt8} (sending : s.task = .sending close false)
      (framed : writeCapsuleFrame close.capsule = .ok frame) :
      Passes s .capsuleWritten { s with
        sent := s.sent ++ frame, exchanged := some close.code, task := .sending close true }
  | closeDone {close : CloseCommand} {written : Bool} (sending : s.task = .sending close written) :
      Passes s .closeDone { s with
        task := .returned (.ok (some (close.code, capsuleReason close.reason))) }
  | ended {event : Event backend} {t : State backend} (other : event.handsOver = false)
      (dropped : t.task.receiving = false) : Passes s event t

theorem unqueued_of_ne {s : State backend} {event : Event backend}
    (other : ∀ code reason, event ≠ .requestClose code reason) : Unqueued s event := by
  intro close queues
  obtain ⟨code, reason, same, _⟩ := queues
  exact other code reason same

theorem passes_of_requestClose (s : State backend) (code : UInt32) (reason : List UInt8) :
    Passes s (.requestClose code reason) (s.requestClose code reason) := by
  rw [State.requestClose]
  cases alive : s.task.receiving with
  | false =>
      refine .kept rfl (fun close queues => ?_) rfl rfl rfl
      obtain ⟨_, _, _, receiving, _⟩ := queues
      rw [alive] at receiving
      cases receiving
  | true =>
      cases queued : s.queue with
      | none => exact .queued ⟨code, reason, rfl, alive, queued, rfl⟩
      | some held =>
          refine .kept rfl (fun close queues => ?_) rfl rfl rfl
          obtain ⟨_, _, _, _, empty, _⟩ := queues
          rw [queued] at empty
          cases empty

theorem channel_closeConnection {s : State backend} {code : UInt32} {reason : List UInt8} :
    (s.closeConnection code reason).queue = s.queue ∧ (s.closeConnection code reason).sent = s.sent := by
  rw [State.closeConnection]
  split <;> exact ⟨rfl, rfl⟩

theorem receiving_of_advance {s t : State backend} (stepped : s.advance = some t) :
    t.task.receiving = false := by
  cases moves_of_advance stepped with
  | quiet _ _ _ _ quiet => cases quiet
  | stored => rfl
  | checked =>
      cases isOpen : s.connReason <;> cases backend <;>
        simp [State.checkOpen, isOpen, State.afterResult, Task.receiving]
  | graceful => cases backend <;> rfl
  | closing => cases backend <;> rfl
  | handled => cases isOpen : s.connReason <;> simp [Task.receiving]
  | closingEnded => rfl
  | settled => rfl

theorem passes_of_step {s t : State backend} {event : Event backend} (stepped : step s event = some t) :
    Passes s event t := by
  cases event with
  | requestClose code reason =>
      simp only [step] at stepped
      split at stepped <;> cases stepped
      exact passes_of_requestClose s code reason
  | fallback caller =>
      simp only [step] at stepped
      split at stepped <;> cases stepped
      exact .kept rfl (unqueued_of_ne (by simp)) (State.task_closeConnection _ _ _)
        channel_closeConnection.1 channel_closeConnection.2
  | readCapsule =>
      simp only [step] at stepped
      split at stepped
      · rw [State.readCapsule] at stepped
        split at stepped
        · cases stepped
        · cases stepped
        · split at stepped <;> cases stepped
          · exact .ended rfl rfl
          · exact .ended rfl rfl
        · cases stepped
          exact .ended rfl rfl
        · cases stepped
          exact .kept rfl (unqueued_of_ne (by simp)) rfl rfl rfl
      · cases stepped
  | takeClose =>
      simp only [step] at stepped
      split at stepped
      · rename_i selecting
        rw [State.takeClose] at stepped
        split at stepped
        · rename_i held
          cases stepped
          exact .taken selecting held
        · rename_i empty
          split at stepped <;> cases stepped
          exact .handlesGone selecting empty
      · cases stepped
  | capsuleWritten =>
      simp only [step] at stepped
      split at stepped
      · rename_i sending
        split at stepped <;> cases stepped
        rename_i framed
        exact .written sending framed
      · cases stepped
  | closeDone =>
      simp only [step] at stepped
      split at stepped <;> cases stepped
      rename_i sending
      exact .closeDone sending
  | advance => exact .ended rfl (receiving_of_advance stepped)
  | observe =>
      simp only [step] at stepped
      split at stepped
      · cases stepped
      · split at stepped <;> cases stepped
        · exact .kept rfl (unqueued_of_ne (by simp)) rfl rfl rfl
        · exact .kept rfl (unqueued_of_ne (by simp)) rfl rfl rfl
  | cloneHandle | dropHandle | lost error | deliver chunk | finish | reset error =>
      simp only [step] at stepped
      split at stepped <;> cases stepped
      exact .kept rfl (unqueued_of_ne (by simp)) rfl rfl rfl

/-- Until the task has taken a close command, the channel holds the first one
queued; from then on the task carries it out. -/
structure Follows (events : List (Event backend)) (s : State backend) : Prop where
  unsent : s.task = .select → s.sent = []
  empty : s.task = .select → s.queue = none → EachStep step Unqueued (start backend) events
  held : ∀ close, s.task = .select → s.queue = some close →
    FirstStep step Queues (start backend) events close
  sending : ∀ close written, s.task = .sending close written →
    FirstStep step Queues (start backend) events close ∧
      (s.sent = [] ∨ writeCapsuleFrame close.capsule = .ok s.sent) ∧ (written = false → s.sent = [])

end Webtrans.Session
