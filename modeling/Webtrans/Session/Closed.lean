import Webtrans.Data.Notify
import Webtrans.Proto.Messages
import Webtrans.Session.Ending

namespace Webtrans.Session

open Webtrans.Data Webtrans.Proto

/-! The calls of Quion's `closed` beside the session they wait for: each
prepares for `close_notify`, looks at the stored error and then at the
connection, and the background task notifies once it is done. -/

theorem readFrame_incremental : Incremental readFrame := by
  refine (VarInt.read_incremental _).bind fun typ => (VarInt.read_incremental _).bind fun length stream => ?_
  exact Decides.ite (fun _ => .fail _) fun _ => (Decides.readExact _ _).bind fun payload after _ => .return_ _

theorem readCapsuleFrame_decides (recv : RecvStream) (pending : List UInt8) :
    Decides (fun recv => readCapsuleFrame recv pending) recv := by
  induction size : recv.bytes.length using Nat.strong_induction_on generalizing recv pending with
  | h size ih =>
      subst size
      rw [funext fun recv => readCapsuleFrame_eq recv pending]
      cases decodeBufferedCapsule pending with
      | error error => exact .fail error
      | ok found =>
          cases found with
          | some result => exact .return_ (result.1, result.2)
          | none =>
              refine (readFrame_incremental recv).bind fun frame after frameRead => ?_
              have shorter := readFrame_length frameRead
              exact ih _ (by omega) after _ rfl

/-- A call borrows its handle. -/
def closed : Answering (State .quion) (Event .quion) (SessionError .quion) where
  step := step
  answer s := s.closeError
  fallback s := s.connReason.map SessionError.fromConnectionError
  announces s := decide (s.task = .done)
  callable s := s.handles != 0
  free s
    | .dropHandle => s.handles != 1
    | _ => true

structure Answered (s : State .quion) : Prop where
  settles : SettlesClosed s
  stored : s.task = .done → s.closeError ≠ none

theorem answered_start : Answered (start .quion) where
  settles settling := by cases settling
  stored finished := by cases finished

theorem Answered.step {s t : State .quion} {event : Event .quion} (answered : Answered s)
    (stepped : step s event = some t) : Answered t := by
  refine ⟨settlesClosed_step answered.settles stepped, ?_⟩
  have stored := answered.stored
  cases moves_of_step stepped with
  | quiet | refused _ | observed _ => exact stored
  | fallback call => simpa using stored
  | lost isOpen => exact stored
  | checked checks =>
      intro finished
      cases isOpen : s.connReason <;> simp [State.checkOpen, State.afterResult, isOpen] at finished
  | handled handled =>
      intro finished
      cases isOpen : s.connReason <;> simp [isOpen] at finished
  | settled settling =>
      intro _
      obtain ⟨error, isClosed⟩ := Option.ne_none_iff_exists'.mp (answered.settles settling)
      cases kept : s.closeError <;> simp [isClosed]
  | _ => intro finished; simp [State.afterResult] at finished

theorem done_stays {s t : State .quion} {event : Event .quion} (finished : s.task = .done)
    (stepped : step s event = some t) : t.task = .done ∧ t.closeError = s.closeError := by
  cases moves_of_step stepped with
  | quiet | refused _ | observed _ | lost _ => exact ⟨finished, rfl⟩
  | fallback call =>
    exact ⟨(State.task_closeConnection _ _ _).trans finished, State.closeError_closeConnection _ _ _⟩
  | checked checks =>
      rw [finished] at checks
      obtain ⟨_, other⟩ | other | ⟨_, other, _⟩ := checks <;> cases other
  | graceful ends =>
      rw [finished] at ends
      obtain other | ⟨_, other, _⟩ := ends <;> cases other
  | received other | readerEnded other | taken other | handlesGone other | written other | closeDone other
  | stored _ other | closing other | handled other | closingEnded other | settled other =>
      rw [finished] at other
      cases other

theorem closed_lawful : closed.Lawful Answered where
  kept answered stepped := answered.step stepped
  answered answered ready := Option.ne_none_iff_exists'.mp (answered.stored (of_decide_eq_true ready))
  stays _ ready stepped := by
    obtain ⟨finished, same⟩ := done_stays (of_decide_eq_true ready) stepped
    exact ⟨decide_eq_true finished, same⟩

/-- The task has something to end it. -/
def Ends (s : State .quion) : Prop :=
  s.task ≠ .select ∨ s.queue ≠ none ∨ s.handles = 0 ∨ s.recv.ending ≠ .waiting

/-- Steps of the task that it does not wait for anyone to take: the peer's
acknowledgement is waited for five seconds only. -/
def Event.Own : Event .quion → Prop
  | readCapsule | takeClose | closeDone | advance => True
  | _ => False

def Task.rank : Task → Nat
  | done => 0
  | settling => 1
  | closingEnded => 2
  | handled => 3
  | closing _ _ => 4
  | recorded _ _ => 5
  | returned _ => 6
  | sending _ _ => 7
  | select => 8

def State.toGo (s : State .quion) : Nat := s.task.rank + s.recv.bytes.length + s.pending.length

theorem advance_rank {s t : State .quion} (advanced : s.advance = some t) :
    t.task.rank < s.task.rank ∧ t.recv = s.recv ∧ t.pending = s.pending ∧ t.task ≠ .select := by
  rw [State.advance] at advanced
  split at advanced
  case h_1 | h_2 | h_3 => cases advanced
  case h_4 returned =>
    cases advanced
    simp [returned, Task.rank]
  case h_5 recorded =>
    cases advanced
    cases isOpen : s.connReason <;> simp [State.checkOpen, State.afterResult, recorded, isOpen, Task.rank]
  case h_6 returned =>
    cases advanced
    simp [State.afterResult, returned, Task.rank]
  case h_7 error returned =>
    cases graceful : isGracefulClose error with
    | true =>
        simp only [graceful, if_true, Option.some.injEq] at advanced
        subst advanced
        simp [State.afterResult, returned, Task.rank]
    | false =>
        simp only [graceful, Bool.false_eq_true, if_false, Option.some.injEq] at advanced
        subst advanced
        cases isOpen : s.connReason <;> simp [State.checkOpen, State.afterResult, returned, isOpen, Task.rank]
  case h_8 closing =>
    cases advanced
    cases isOpen : s.connReason <;> simp [State.closeConnection, State.afterResult, closing, isOpen, Task.rank]
  case h_9 handled =>
    cases advanced
    cases s.connReason <;> simp [handled, Task.rank]
  case h_10 closing =>
    cases advanced
    cases isOpen : s.connReason <;> simp [State.closeConnection, closing, isOpen, Task.rank]
  case h_11 settling =>
    cases advanced
    simp [settling, Task.rank]

theorem own_step {s t : State .quion} {event : Event .quion} (ends : Ends s) (stepped : step s event = some t)
    (own : event.Own) : t.toGo < s.toGo ∧ Ends t := by
  cases event with
  | readCapsule =>
      rw [step] at stepped
      split at stepped
      next selecting =>
        rw [State.readCapsule] at stepped
        split at stepped
        next => cases stepped
        next => cases stepped
        next error failed =>
          split at stepped <;> cases stepped <;> simp [State.toGo, Ends, Task.rank, selecting]
        next code reason pending recv read =>
          cases stepped
          have shorter := readCapsuleFrame_length read
          refine ⟨?_, .inl (by simp)⟩
          simp only [State.toGo, Task.rank, selecting]
          omega
        next pending recv read =>
          cases stepped
          have shorter := readCapsuleFrame_length read
          have kept := ((readCapsuleFrame_decides s.recv s.pending).done read).1
          refine ⟨?_, ?_⟩
          · simp only [State.toGo]
            omega
          · rw [Ends, kept]
            exact ends
      next => cases stepped
  | takeClose =>
      rw [step] at stepped
      split at stepped
      next selecting =>
        rw [State.takeClose] at stepped
        split at stepped
        next => cases stepped; simp [State.toGo, Ends, Task.rank, selecting]
        next =>
          split at stepped <;> cases stepped
          simp [State.toGo, Ends, Task.rank, selecting]
      next => cases stepped
  | closeDone =>
      rw [step] at stepped
      split at stepped
      next sending =>
        cases stepped
        simp [State.toGo, Ends, Task.rank, sending]
      next => cases stepped
  | advance =>
      obtain ⟨lower, recv, pending, later⟩ := advance_rank stepped
      refine ⟨?_, .inl later⟩
      rw [State.toGo, State.toGo, recv, pending]
      omega
  | _ => cases own

/-- A task that has something to end it goes on. -/
theorem own_progress {s : State .quion} (ends : Ends s) :
    s.task = .done ∨ ∃ event t, event.Own ∧ step s event = some t := by
  cases stands : s.task with
  | select =>
      right
      rcases ends with other | queued | gone | ended
      · exact absurd stands other
      · obtain ⟨close, queued⟩ := Option.ne_none_iff_exists'.mp queued
        exact ⟨.takeClose, _, trivial, by rw [step, if_pos stands, State.takeClose, queued]⟩
      · cases queued : s.queue with
        | some close => exact ⟨.takeClose, _, trivial, by rw [step, if_pos stands, State.takeClose, queued]⟩
        | none =>
          exact ⟨.takeClose, _, trivial, by
            rw [step, if_pos stands, State.takeClose, queued]; exact if_pos gone⟩
      · have decides := readCapsuleFrame_decides s.recv s.pending
        have possible : ∃ t, s.readCapsule = some t := by
          rw [State.readCapsule]
          cases read : readCapsuleFrame s.recv s.pending with
          | pending => exact absurd read (decides.ended ended)
          | panicked => exact absurd read decides.safe
          | failed error =>
              dsimp only
              split <;> exact ⟨_, rfl⟩
          | done value recv =>
              obtain ⟨capsule, pending⟩ := value
              cases capsule <;> exact ⟨_, rfl⟩
        obtain ⟨t, stepped⟩ := possible
        exact ⟨.readCapsule, t, trivial, by rw [step, if_pos stands, stepped]⟩
  | sending close written => exact .inr ⟨.closeDone, _, trivial, by rw [step, stands]⟩
  | done => exact .inl rfl
  | returned result =>
      right
      refine ⟨.advance, ?_⟩
      cases result with
      | ok close => cases close <;> exact ⟨_, trivial, by rw [step, State.advance, stands]⟩
      | error error =>
          cases graceful : isGracefulClose error <;>
            exact ⟨_, trivial, by simp only [step, State.advance, stands, graceful]; rfl⟩
  | _ => exact .inr ⟨.advance, _, trivial, by rw [step, State.advance, stands]⟩

theorem done_reached {s : State .quion} (ends : Ends s) : ∃ t, Reaches step Event.Own s t ∧ t.task = .done := by
  obtain ⟨t, reached, _, finished⟩ := @reaches_of_progress _ _ step Ends
    (fun s => s.task = .done) Event.Own State.toGo
    (fun ends stepped own => (own_step ends stepped own).2) (fun ends stepped own => (own_step ends stepped own).1)
    (fun ends => own_progress ends) s ends
  exact ⟨t, reached, finished⟩

/-- Quion's `closed` returns.  Once the end of the session is announced, there
is an answer for good: callers that look from then on return it, and so does
the session on every later question.  As soon as the task has something to end
it, all calls return by their own steps and the task's. -/
theorem closed_returns {s : Audience (State .quion) (SessionError .quion)}
    {events : List (Attendance (Event .quion))} (ran : run closed.attend { base := start .quion } events = some s) :
    (s.announced = true → ∃ error, ∀ {later t}, run closed.attend s later = some t →
      t.base.closeReason = some error ∧ Answering.Found s error t) ∧
    (Ends s.base → ∃ last, Reaches closed.attend (Attendance.Own Event.Own) s last ∧ last.announced = true ∧
      ∀ (id : Nat) (caller : Caller (SessionError .quion)),
        s.callers[id]? = some caller → caller.pending = true →
        ∃ error, last.callers[id]? = some (.returned error)) := by
  have attended : closed.Attended Answered s := (Answering.attended_start answered_start).run closed_lawful ran
  constructor
  · intro announced
    obtain ⟨error, answered⟩ := closed_lawful.answered attended.base (attended.announced announced)
    refine ⟨error, ?_⟩
    intro later t went
    obtain ⟨_, still, found⟩ := attended.returns closed_lawful announced answered went
    refine ⟨?_, found⟩
    have stored : t.base.closeError = some error := still
    rw [State.closeReason, stored]
    rfl
  · intro ends
    obtain ⟨base, reached, finished⟩ := done_reached ends
    refine attended.settles closed_lawful ?_ ⟨base, reached, decide_eq_true finished⟩
    intro event own state
    cases event with
    | dropHandle => cases own
    | _ => rfl

/-- A call sleeps when the peer ends the CONNECT stream. -/
theorem closed_returns_finish : ∃ s last : Audience (State .quion) (SessionError .quion),
    run closed.attend { base := start .quion } [.call, .check 0, .fall 0, .base .finish] = some s ∧
      s.callers = [.waiting false] ∧ Reaches closed.attend (Attendance.Own Event.Own) s last ∧
      ∃ error, last.callers[0]? = some (.returned error) := by
  have sleeps : (run closed.attend { base := start .quion } [.call, .check 0, .fall 0, .base .finish]).map
      (fun s => (s.callers, s.base.recv.ending)) = some ([.waiting false], .finished) := by
    decide +kernel
  obtain ⟨s, ran, seen⟩ := Option.map_eq_some_iff.mp sleeps
  obtain ⟨sleeping, ended⟩ := Prod.mk.inj seen
  have ends : Ends s.base := .inr (.inr (.inr (by rw [ended]; exact fun same => by cases same)))
  obtain ⟨last, reached, _, finished⟩ := (closed_returns ran).2 ends
  exact ⟨s, last, ran, sleeping, reached, finished 0 (.waiting false) (by rw [sleeping]; rfl) rfl⟩

end Webtrans.Session
