import Webtrans.Data.Transition
import Webtrans.Session.Machine

namespace Webtrans.Session

open Webtrans.Data Webtrans.Proto

/-! What the end of the background task leaves behind: whether the connection
is closed, and with which code. -/

variable {backend : Backend}

def SettlesClosed (s : State backend) : Prop :=
  s.task = .settling → s.connReason ≠ none

def DoneClosed (s : State backend) : Prop :=
  s.task = .done → s.connReason ≠ none

/-- The arms of Quinn's task that only log, met while the connection is open. -/
def LeavesOpen (s : State backend) (event : Event backend) : Prop :=
  backend = .quinn ∧ event = .advance ∧ EndsGracefully s.task ∧ s.connReason = none

theorem settlesClosed_step {s t : State backend} {event : Event backend} (settles : SettlesClosed s)
    (stepped : step s event = some t) : SettlesClosed t := by
  rw [SettlesClosed] at *
  cases moves_of_step stepped with
  | fallback call => intro _; simp
  | lost isOpen => intro _; simp
  | checked checks =>
      cases closed : s.connReason <;> cases backend <;> simp [State.checkOpen, State.afterResult, closed]
  | graceful ends => cases backend <;> simp [State.afterResult]
  | closing closing => intro _; simp
  | handled handled => cases s.connReason <;> simp
  | closingEnded closing => intro _; simp
  | _ => simp_all

theorem not_endsGracefully {task : Task} (other : ∀ result, task ≠ .returned result) :
    ¬ EndsGracefully task := by
  intro ended
  obtain returned | ⟨error, returned, _⟩ := ended
  · exact other _ returned
  · exact other _ returned

theorem Checks.not_endsGracefully {task : Task} {code : UInt32} {reason : String}
    (checks : Checks backend task code reason) : ¬ EndsGracefully task := by
  rcases checks with ⟨_, rfl⟩ | rfl | ⟨error, rfl, sharp, _⟩
  · intro ended
    obtain same | ⟨other, same, _⟩ := ended <;> cases same
  · intro ended
    obtain same | ⟨other, same, _⟩ := ended <;> cases same
  · intro ended
    obtain same | ⟨other, same, graceful⟩ := ended <;> cases same
    rw [sharp] at graceful
    cases graceful

/-- A step that finishes the task leaves the connection open exactly when it
is one of Quinn's logging arms and finds it open. -/
theorem doneClosed_step {s t : State backend} {event : Event backend} (settles : SettlesClosed s)
    (closed : DoneClosed s) (stepped : step s event = some t) :
    DoneClosed t ↔ ¬ LeavesOpen s event := by
  rw [DoneClosed, LeavesOpen] at *
  cases moves_of_step stepped with
  | quiet handles queue recv pending quiet =>
      have other : event ≠ .advance := by
        rintro rfl
        cases quiet
      simp only [other, false_and, and_false, not_false_eq_true, iff_true]
      exact closed
  | refused dropped => simpa using closed
  | fallback call => simp
  | observed seen => simpa using closed
  | lost isOpen => simp
  | received selecting read => simp
  | readerEnded selecting ended => simp
  | taken selecting => simp
  | handlesGone selecting => simp
  | written sending => simp
  | closeDone sending => simp
  | stored quion returned => simp [quion]
  | checked checks =>
      cases isOpen : s.connReason <;> simp [State.checkOpen, isOpen, checks.not_endsGracefully]
  | graceful ends => cases backend <;> simp [State.afterResult, ends]
  | closing closing => simp [not_endsGracefully (show ∀ result, s.task ≠ .returned result by simp [closing])]
  | handled handled =>
      cases s.connReason <;>
        simp [not_endsGracefully (show ∀ result, s.task ≠ .returned result by simp [handled])]
  | closingEnded closing =>
      simp [not_endsGracefully (show ∀ result, s.task ≠ .returned result by simp [closing])]
  | settled settling =>
      have isClosed := settles settling
      simp [isClosed]

/-- The end of the CONNECT stream ends the session.  In every run the finished
task has left the connection closed, exactly when Quinn's task never meets a
graceful end of the stream while the connection is open; Quion's task closes
the connection there. -/
theorem doneClosed_iff {last : State backend} {events : List (Event backend)}
    (ran : run step (start backend) events = some last) :
    Always step DoneClosed (start backend) events ↔
      EachStep step (fun s event => ¬ LeavesOpen s event) (start backend) events :=
  always_iff_eachStep settlesClosed_step (fun settles closed stepped => doneClosed_step settles closed stepped)
    (by intro task; cases task) (by intro task; cases task) ran

/-- Quion's task behind the peer's FIN. -/
theorem doneClosed_quion_finish :
    Always step DoneClosed (start .quion) [.finish, .readCapsule, .advance, .advance, .advance, .advance] := by
  have ran : (run step (start .quion)
      [.finish, .readCapsule, .advance, .advance, .advance, .advance]).isSome = true := by
    decide +kernel
  apply (doneClosed_iff (Option.some_get ran).symm).mpr
  intro front event back state _ _ returned
  obtain ⟨isQuinn, _⟩ := returned
  cases isQuinn

/-- The peer's FIN while the connection is open: Quinn's task finishes and
leaves it open. -/
theorem doneClosed_quinn_finish :
    (run step (start .quinn) [.finish, .readCapsule, .advance]).map
      (fun s => (s.task, s.connReason)) = some (.done, none) := by
  decide +kernel

end Webtrans.Session
