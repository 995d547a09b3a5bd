import Webtrans.Data.Transition
import Webtrans.Session.Machine

namespace Webtrans.Session

open Webtrans.Data Webtrans.Proto

/-! The code with which the session closes its connection against the code in
the CLOSE capsule it has sent or received. -/

variable {backend : Backend}

/-- Behind an exchanged CLOSE capsule the task carries its code to the close,
and is done with the result only when the connection is closed. -/
def Task.Owes (code : UInt32) (isOpen : Prop) : Task → Prop
  | select => False
  | sending close _ => close.code = code
  | returned result => ∃ reason, result = .ok (some (code, reason))
  | recorded owed _ | closing owed _ => owed = code
  | handled | closingEnded | settling | done => ¬ isOpen

/-- The session closes nothing before `run_closed` has returned, and from then
on the task owes the exchanged code. -/
structure Serialized (s : State backend) : Prop where
  notYet : s.task.receiving = true → s.ownClose = none ∧ s.closers = []
  owes : ∀ code, s.exchanged = some code → s.task.Owes code (s.connReason = none)
  ownCloses : s.connReason = none → s.ownClose = none

/-- The session's own close agrees with the capsule. -/
def Agrees (s : State backend) : Prop :=
  ∀ code own, s.exchanged = some code → s.ownClose = some own → own.1.intoInner = errorToHttp3 code

/-- A call of `close` that found the channel closed closes the connection with
another code than the capsule's. -/
def Overtakes (s : State backend) (event : Event backend) : Prop :=
  ∃ caller code reason exchanged, event = .fallback caller ∧ s.closers[caller]? = some (code, reason) ∧
    s.connReason = none ∧ s.exchanged = some exchanged ∧ code ≠ exchanged

theorem Checks.code_eq {task : Task} {code exchanged : UInt32} {reason : String} {isOpen : Prop}
    (checks : Checks backend task code reason) (owed : task.Owes exchanged isOpen) : code = exchanged := by
  rcases checks with ⟨_, rfl⟩ | rfl | ⟨error, rfl, _⟩
  · obtain ⟨_, same⟩ := owed
    cases same
    rfl
  · exact owed
  · obtain ⟨_, same⟩ := owed
    cases same

theorem serialized_closeConnection {s : State backend} (serialized : Serialized s)
    (dropped : s.task.receiving = false) (code : UInt32) (reason : List UInt8) :
    Serialized (s.closeConnection code reason) := by
  obtain ⟨notYet, owes, ownCloses⟩ := serialized
  cases isOpen : s.connReason with
  | some error =>
      rw [State.closeConnection_closed isOpen]
      refine ⟨notYet, fun exchanged found => ?_, fun closed => by cases closed⟩
      have owed := owes exchanged found
      cases task : s.task <;> simp_all [Task.Owes]
  | none =>
      rw [State.closeConnection_open isOpen]
      refine ⟨fun alive => ?_, fun exchanged found => ?_, fun closed => ?_⟩
      · rw [dropped] at alive
        cases alive
      · have owed := owes exchanged found
        cases task : s.task <;> simp_all [Task.Owes]
      · cases closed

/-- A task that selects owes no code: it has exchanged no capsule. -/
theorem Serialized.unexchanged {s : State backend} (serialized : Serialized s) (selecting : s.task = .select)
    (code : UInt32) : s.exchanged ≠ some code := by
  intro found
  have owed := serialized.owes code found
  simp [selecting, Task.Owes] at owed

theorem serialized_step {s t : State backend} {event : Event backend} (serialized : Serialized s)
    (stepped : step s event = some t) : Serialized t := by
  have unexchanged := serialized.unexchanged
  obtain ⟨notYet, owes, ownCloses⟩ := serialized
  cases moves_of_step stepped with
  | quiet handles queue recv pending quiet => exact ⟨notYet, owes, ownCloses⟩
  | refused dropped => exact ⟨by simp [dropped], owes, ownCloses⟩
  | fallback call =>
      rename_i caller code reason
      have dropped : s.task.receiving = false := by
        by_contra alive
        simp [(notYet (by simpa using alive)).2] at call
      have answered : Serialized { s with closers := s.closers.eraseIdx caller } :=
        ⟨by simp [dropped], owes, ownCloses⟩
      exact serialized_closeConnection answered dropped code reason
  | observed seen => exact ⟨notYet, owes, ownCloses⟩
  | lost isOpen =>
      refine ⟨notYet, fun code found => ?_, by simp⟩
      have owed := owes code found
      cases task : s.task <;> simp_all [Task.Owes]
  | received selecting read =>
      refine ⟨by simp [Task.receiving], fun code found => ?_, ownCloses⟩
      cases found
      exact ⟨_, rfl⟩
  | readerEnded selecting ended =>
      exact ⟨by simp [Task.receiving], fun code found => absurd found (unexchanged selecting code), ownCloses⟩
  | taken selecting =>
      refine ⟨fun _ => notYet (by simp [selecting, Task.receiving]), fun code found => ?_, ownCloses⟩
      exact absurd found (unexchanged selecting code)
  | handlesGone selecting =>
      exact ⟨by simp [Task.receiving], fun code found => absurd found (unexchanged selecting code), ownCloses⟩
  | written sending =>
      refine ⟨fun _ => notYet (by simp [sending, Task.receiving]), fun code found => ?_, ownCloses⟩
      cases found
      rfl
  | closeDone sending =>
      refine ⟨by simp [Task.receiving], fun code found => ?_, ownCloses⟩
      have owed := owes code found
      simp only [sending, Task.Owes] at owed
      exact ⟨_, by rw [owed]⟩
  | stored quion returned =>
      refine ⟨by simp [Task.receiving], fun code found => ?_, ownCloses⟩
      have owed := owes code found
      rw [returned] at owed
      obtain ⟨_, same⟩ := owed
      cases same
      rfl
  | checked checks =>
      refine ⟨?_, fun code found => ?_, ownCloses⟩
      · cases isOpen : s.connReason <;> cases backend <;>
          simp [State.checkOpen, isOpen, State.afterResult, Task.receiving]
      · have same := checks.code_eq (owes code found)
        cases isOpen : s.connReason <;> cases backend <;>
          simp [State.checkOpen, isOpen, State.afterResult, Task.Owes, same]
  | graceful ends =>
      refine ⟨by cases backend <;> simp [State.afterResult, Task.receiving], fun code found => ?_, ownCloses⟩
      have owed := owes code found
      rcases ends with task | ⟨error, task, _⟩ <;> rw [task] at owed <;> obtain ⟨_, same⟩ := owed <;>
        cases same
  | closing closing =>
      refine ⟨by cases backend <;> simp [State.afterResult, Task.receiving], fun code found => ?_, by simp⟩
      cases backend <;> simp [State.afterResult, Task.Owes]
  | handled handled =>
      refine ⟨by cases s.connReason <;> simp [Task.receiving], fun code found => ?_, ownCloses⟩
      have owed := owes code found
      rw [handled] at owed
      cases isOpen : s.connReason <;> simp_all [Task.Owes]
  | closingEnded closing =>
      exact ⟨by simp [Task.receiving], fun code found => by simp [Task.Owes], by simp⟩
  | settled settling =>
      refine ⟨by simp [Task.receiving], fun code found => ?_, ownCloses⟩
      have owed := owes code found
      rw [settling] at owed
      exact owed

/-- A close by the task or by a caller agrees with the capsule exactly when it
comes too late or carries the capsule's code. -/
theorem agrees_closeConnection {s : State backend} (agrees : Agrees s) (code : UInt32)
    (reason : List UInt8) :
    Agrees (s.closeConnection code reason) ↔
      (s.connReason = none → ∀ exchanged, s.exchanged = some exchanged → code = exchanged) := by
  cases isOpen : s.connReason with
  | some error =>
      rw [State.closeConnection_closed isOpen]
      have kept : Agrees { s with connReason := some error.closedAgain } := agrees
      simpa using kept
  | none =>
      rw [State.closeConnection_open isOpen]
      constructor
      · intro same _ exchanged found
        have codes := same exchanged _ found rfl
        rw [closeCode_intoInner] at codes
        exact errorToHttp3_injective codes
      · intro same exchanged own found closed
        cases closed
        rw [closeCode_intoInner, same rfl exchanged found]

theorem agrees_step {s t : State backend} {event : Event backend} (serialized : Serialized s)
    (agrees : Agrees s) (stepped : step s event = some t) : Agrees t ↔ ¬ Overtakes s event := by
  have notFallback : ∀ {other : Event backend}, (∀ caller, other ≠ .fallback caller) →
      ¬ Overtakes s other := by
    intro other different fired
    obtain ⟨caller, _, _, _, same, _⟩ := fired
    exact different caller same
  cases moves_of_step stepped with
  | quiet handles queue recv pending quiet =>
      refine ⟨fun _ => notFallback ?_, fun _ => agrees⟩
      rintro caller rfl
      cases quiet
  | fallback call =>
      rw [agrees_closeConnection (by exact agrees)]
      constructor
      · intro same fired
        obtain ⟨caller, code, reason, exchanged, fired, called, isOpen, found, different⟩ := fired
        cases fired
        rw [call] at called
        cases called
        exact different (same isOpen exchanged found)
      · intro never isOpen exchanged found
        by_contra different
        exact never ⟨_, _, _, exchanged, rfl, call, isOpen, found, different⟩
  | lost isOpen =>
      refine ⟨fun _ => notFallback (by simp), fun _ => ?_⟩
      exact agrees
  | received selecting read =>
      refine ⟨fun _ => notFallback (by simp), fun _ code own _ closed => ?_⟩
      have unclosed := (serialized.notYet (by simp [selecting, Task.receiving])).1
      rw [show s.ownClose = some own from closed] at unclosed
      cases unclosed
  | written sending =>
      refine ⟨fun _ => notFallback (by simp), fun _ code own _ closed => ?_⟩
      have unclosed := (serialized.notYet (by simp [sending, Task.receiving])).1
      rw [show s.ownClose = some own from closed] at unclosed
      cases unclosed
  | closing closing =>
      rename_i code reason
      refine ⟨fun _ => notFallback (by simp), fun _ => ?_⟩
      have owed := (agrees_closeConnection agrees code (asBytes reason)).mpr
        fun _ exchanged found => by
          have owes := serialized.owes exchanged found
          rwa [closing] at owes
      exact owed
  | closingEnded closing =>
      refine ⟨fun _ => notFallback (by simp), fun _ => ?_⟩
      have late := (agrees_closeConnection agrees 0 (asBytes "CONNECT stream ended")).mpr
        fun isOpen exchanged found => by
          have owes := serialized.owes exchanged found
          rw [closing] at owes
          exact absurd isOpen owes
      exact late
  | _ => exact ⟨fun _ => notFallback (by simp), fun _ => agrees⟩

theorem serialized_start : Serialized (start backend) :=
  ⟨fun _ => ⟨rfl, rfl⟩, fun _ found => (by cases found), fun _ => rfl⟩

/-- The QUIC close agrees with the capsule.  Along every run the session's own
close carries the code of the CLOSE capsule sent or received, exactly when no
call of `close` that found the channel closed overtakes the task with another
code. -/
theorem agrees_iff {last : State backend} {events : List (Event backend)}
    (ran : run step (start backend) events = some last) :
    Always step Agrees (start backend) events ↔
      EachStep step (fun s event => ¬ Overtakes s event) (start backend) events :=
  always_iff_eachStep serialized_step (fun serialized agrees stepped => agrees_step serialized agrees stepped)
    serialized_start (by intro code own found; cases found) ran

/-- A local close that the task takes before it reads the peer's CLOSE capsule. -/
theorem agrees_localClose :
    Always step Agrees (start .quion)
      [.requestClose 7 [0x78], .deliver [0x00, 0x09, 0x68, 0x43, 0x06, 0x00, 0x00, 0x00, 0x2a, 0x68, 0x69],
        .takeClose, .capsuleWritten, .closeDone, .advance, .advance, .advance] := by
  have ran : (run step (start .quion)
      [.requestClose 7 [0x78], .deliver [0x00, 0x09, 0x68, 0x43, 0x06, 0x00, 0x00, 0x00, 0x2a, 0x68, 0x69],
        .takeClose, .capsuleWritten, .closeDone, .advance, .advance, .advance]).isSome = true := by
    decide +kernel
  apply (agrees_iff (Option.some_get ran).symm).mpr
  intro front event back state split _ fired
  obtain ⟨caller, _, _, _, rfl, _⟩ := fired
  have member : Event.fallback caller ∈ front ++ .fallback caller :: back := by simp
  rw [← split] at member
  simp at member

/-- The task has received CLOSE with code 42 and `run_closed` has returned; a
call of `close` with code 7 finds the channel closed and closes the connection
first. -/
theorem agrees_overtaken :
    (run step (start .quion)
      [.deliver [0x00, 0x09, 0x68, 0x43, 0x06, 0x00, 0x00, 0x00, 0x2a, 0x68, 0x69], .readCapsule,
        .requestClose 7 [0x78], .fallback 0, .advance, .advance, .advance, .advance]).map
      (fun s => (s.exchanged, s.ownClose.map (·.1.intoInner), s.task)) =
        some (some 42, some (errorToHttp3 7), .done) ∧ errorToHttp3 7 ≠ errorToHttp3 42 := by
  decide +kernel

end Webtrans.Session
