import Webtrans.Data.Waiters
import Webtrans.Session.Overtaking

namespace Webtrans.Session.Accept

open Webtrans.Data Webtrans.Proto

/-! Tasks that await `accept_uni` or `accept_bi` on clones of one session.  Each
polls the shared state with its own waker, and only the last waker is kept. -/

variable {backend : Backend} {d : Direction} {session : VarInt}

/-- The accept calls of one direction. -/
structure Calls where
  tasks : Waiters Nat := {}
  /-- The waker that the accept future of the connection keeps. -/
  acceptWaker : Option Nat := none
  /-- The waker that the set of pending decodes keeps. -/
  setWaker : Option Nat := none
deriving DecidableEq

namespace Calls

def network (calls : Calls) (side : Side backend) : NetworkEvent → Calls
  | .arrive => { calls with tasks := calls.tasks.wake calls.acceptWaker }
  | .receive id _ | .finish id | .reset id _ =>
      if id ∈ side.pending then { calls with tasks := calls.tasks.wake calls.setWaker } else calls

def lose (calls : Calls) : Calls :=
  { calls with tasks := (calls.tasks.wake calls.acceptWaker).wake calls.setWaker }

/-- A task leaves its waker with both sources, unless the loop returns the
error of the first. -/
def polled (calls : Calls) (task : Nat) : Option (Polled backend) → Calls
  | some (.failed _) => { calls with tasks := calls.tasks.leave task }
  | some (.ready _) => ⟨calls.tasks.leave task, some task, some task⟩
  | _ => ⟨calls.tasks.park task, some task, some task⟩

def cancel (calls : Calls) (task : Nat) : Calls :=
  { calls with tasks := calls.tasks.leave task }

end Calls

/-- The state that the clones of a session share, and the calls on them. -/
structure Clones (backend : Backend) where
  state : State backend := {}
  uni : Calls := {}
  bi : Calls := {}
deriving DecidableEq

inductive Turn (backend : Backend) where
  | network (d : Direction) (event : NetworkEvent)
  | lose (error : ConnectionError backend)
  /-- A task polls its accept call, woken or not. -/
  | poll (d : Direction) (task : Nat) (completions : List Nat)
  /-- A task drops its accept call. -/
  | cancel (d : Direction) (task : Nat)

namespace Clones

def calls (clones : Clones backend) : Direction → Calls
  | .uni => clones.uni
  | .bi => clones.bi

def setCalls (clones : Clones backend) (calls : Calls) : Direction → Clones backend
  | .uni => { clones with uni := calls }
  | .bi => { clones with bi := calls }

theorem calls_setCalls (clones : Clones backend) (calls : Calls) (d other : Direction) :
    (clones.setCalls calls d).calls other = if other = d then calls else clones.calls other := by
  cases d <;> cases other <;> rfl

@[simp] theorem state_setCalls (clones : Clones backend) (calls : Calls) (d : Direction) :
    (clones.setCalls calls d).state = clones.state := by
  cases d <;> rfl

@[simp] theorem calls_state (clones : Clones backend) (state : State backend) (d : Direction) :
    { clones with state }.calls d = clones.calls d := by
  cases d <;> rfl

end Clones

def turn (session : VarInt) (clones : Clones backend) : Turn backend → Option (Clones backend)
  | .network d event =>
      (step session clones.state (.network d event)).map fun state =>
        { clones with state }.setCalls ((clones.calls d).network (clones.state.side d) event) d
  | .lose error =>
      (step session clones.state (.lose error)).map fun state =>
        { state, uni := clones.uni.lose, bi := clones.bi.lose }
  | .poll d task completions =>
      (step session clones.state (.poll d completions)).map fun state =>
        { clones with state }.setCalls ((clones.calls d).polled task (state.side d).polled) d
  | .cancel d task =>
      if task ∈ (clones.calls d).tasks.suspended then
        some (clones.setCalls ((clones.calls d).cancel task) d)
      else none

def opening : Clones backend := {}

namespace Clones

/-- A poll in this direction would return a stream. -/
def Returnable (session : VarInt) (clones : Clones backend) (d : Direction) : Prop :=
  clones.state.lost = none ∧ ∃ id, (clones.state.side d).Deliverable d session id

/-- While a stream could be returned, a suspended task has been woken, or its
waker is one of those that are kept. -/
def Awake (session : VarInt) (clones : Clones backend) : Prop :=
  ∀ d, clones.Returnable session d → (clones.calls d).tasks.suspended ≠ [] →
    ∃ task ∈ (clones.calls d).tasks.suspended, task ∈ (clones.calls d).tasks.woken ∨
      (clones.calls d).acceptWaker = some task ∨ (clones.calls d).setWaker = some task

/-- While a stream could be returned, a suspended task has been woken. -/
def Woken (session : VarInt) (clones : Clones backend) : Prop :=
  ∀ d, clones.Returnable session d → (clones.calls d).tasks.suspended ≠ [] →
    ∃ task ∈ (clones.calls d).tasks.suspended, task ∈ (clones.calls d).tasks.woken

/-- A task that leaves an open session, with a stream or by giving up, leaves
no other task behind, or one that has been woken, or (when it gives up) one
that has polled after it. -/
def LeavesNoneBehind (session : VarInt) (clones : Clones backend) : Turn backend → Prop
  | .poll d task _ =>
      clones.Returnable session d →
        (∀ other ∈ (clones.calls d).tasks.suspended, other = task) ∨
        ∃ other ∈ (clones.calls d).tasks.suspended, other ≠ task ∧ other ∈ (clones.calls d).tasks.woken
  | .cancel d task =>
      clones.state.lost = none →
        (∀ other ∈ (clones.calls d).tasks.suspended, other = task) ∨
        ∃ other ∈ (clones.calls d).tasks.suspended, other ≠ task ∧
          (other ∈ (clones.calls d).tasks.woken ∨ (clones.calls d).acceptWaker = some other)
  | _ => True

end Clones

/-! ## One direction -/

/-- The calls of an open session are woken for what they wait for. -/
structure Calls.Covered (d : Direction) (session : VarInt) (side : Side backend) (calls : Calls) : Prop where
  wakers : calls.setWaker = calls.acceptWaker
  reached : calls.tasks.suspended = [] ∨ (∃ task ∈ calls.tasks.suspended, task ∈ calls.tasks.woken) ∨
    ∃ task ∈ calls.tasks.suspended, calls.acceptWaker = some task
  /-- The task that polled last found nothing, or something has woken it since. -/
  last : ∀ task ∈ calls.tasks.suspended, calls.acceptWaker = some task → task ∈ calls.tasks.woken ∨
    side.queue = [] ∧ ∀ id, ¬ side.Deliverable d session id

namespace Calls

variable {side next : Side backend} {calls : Calls} {task : Nat}

theorem covered_nil : ({} : Calls).Covered d session side where
  wakers := rfl
  reached := Or.inl rfl
  last _ member := absurd member List.not_mem_nil

theorem Covered.wake (covered : calls.Covered d session side) (waker : Option Nat) :
    Covered d session side { calls with tasks := calls.tasks.wake waker } where
  wakers := covered.wakers
  reached := by
    dsimp only
    rw [Waiters.suspended_wake]
    rcases covered.reached with empty | ⟨task, suspended, woken⟩ | last
    · exact Or.inl empty
    · exact Or.inr (Or.inl ⟨task, suspended, Waiters.woken_wake woken⟩)
    · exact Or.inr (Or.inr last)
  last task suspended kept := by
    dsimp only at suspended
    rw [Waiters.suspended_wake] at suspended
    rcases covered.last task suspended kept with woken | nothing
    · exact Or.inl (Waiters.woken_wake woken)
    · exact Or.inr nothing

/-- Waking the task that polled last covers whatever has become of the streams. -/
theorem Covered.wake_last (covered : calls.Covered d session side) :
    Covered d session next { calls with tasks := calls.tasks.wake calls.acceptWaker } where
  wakers := covered.wakers
  reached := (covered.wake calls.acceptWaker).reached
  last task suspended kept := by
    dsimp only at suspended kept
    rw [Waiters.suspended_wake] at suspended
    left
    dsimp only
    rw [kept]
    exact Waiters.wake_woken suspended

theorem Covered.change {effect : Incoming → Incoming} {id : Nat} (covered : calls.Covered d session side)
    (valid : side.Valid d session) (changes : Side.Changes effect)
    (happened : side.change id effect = some next) :
    Covered d session next
      (if id ∈ side.pending then { calls with tasks := calls.tasks.wake calls.setWaker } else calls) := by
  obtain ⟨stream, found, isOpen, rfl⟩ := Side.change_cases happened
  split
  next =>
    have woken := congrArg (fun waker => { calls with tasks := calls.tasks.wake waker }) covered.wakers
    rw [woken]
    exact covered.wake_last
  next started =>
    refine ⟨covered.wakers, covered.reached, fun task suspended kept => ?_⟩
    refine (covered.last task suspended kept).imp_right fun nothing => ?_
    obtain ⟨emptied, none⟩ := nothing
    refine ⟨emptied, fun other deliverable => ?_⟩
    obtain ⟨after, known, complete, outside⟩ := deliverable
    have validNext := valid.change found isOpen changes
    by_cases same : id = other
    · subst same
      refine complete.not_rejected (validNext.rejected known fun tracked => ?_)
      rw [Side.tracked, emptied, List.nil_append] at tracked
      rcases List.mem_append.mp tracked with pending | delivered
      · exact started pending
      · exact outside delivered
    · obtain ⟨before, was, rfl⟩ := Side.modified known
      rw [if_neg same] at complete
      exact none other ⟨before, was, complete, outside⟩

theorem Covered.network {event : NetworkEvent} (covered : calls.Covered d session side)
    (valid : side.Valid d session) (happened : side.network event = some next) :
    (calls.network side event).Covered d session next := by
  cases event with
  | arrive => exact covered.wake_last
  | receive id chunk => exact covered.change valid (.receive chunk) happened
  | finish id => exact covered.change valid .finish happened
  | reset id error => exact covered.change valid (.reset error) happened

theorem covered_park (valid : side.Valid d session) (emptied : side.queue = [])
    (waiting : ∀ id ∈ side.pending, side.decode d session id = .pending) :
    Covered d session side ⟨calls.tasks.park task, some task, some task⟩ where
  wakers := rfl
  reached := Or.inr (Or.inr ⟨task, Waiters.park_suspended, rfl⟩)
  last _ _ _ := by
    refine Or.inr ⟨emptied, fun id deliverable => ?_⟩
    obtain ⟨stream, found, complete, outside⟩ := deliverable
    exact outside (valid.complete_delivered emptied waiting found complete)

theorem suspended_leave_nil (alone : ∀ other ∈ calls.tasks.suspended, other = task) :
    (calls.tasks.leave task).suspended = [] := by
  refine List.eq_nil_iff_forall_not_mem.mpr fun other member => ?_
  obtain ⟨suspended, differs⟩ := Waiters.mem_suspended_leave.mp member
  exact differs (alone other suspended)

theorem covered_serve
    (relieved : (∀ other ∈ calls.tasks.suspended, other = task) ∨
      ∃ other ∈ calls.tasks.suspended, other ≠ task ∧ other ∈ calls.tasks.woken) :
    Covered d session side ⟨calls.tasks.leave task, some task, some task⟩ where
  wakers := rfl
  reached := by
    rcases relieved with alone | ⟨other, suspended, differs, woken⟩
    · exact Or.inl (suspended_leave_nil alone)
    · exact Or.inr (Or.inl ⟨other, Waiters.mem_suspended_leave.mpr ⟨suspended, differs⟩,
        Waiters.mem_woken_leave.mpr ⟨woken, differs⟩⟩)
  last other suspended kept := by
    obtain ⟨_, differs⟩ := Waiters.mem_suspended_leave.mp suspended
    exact absurd (Option.some.inj kept).symm differs

theorem Covered.cancel (covered : calls.Covered d session side)
    (relieved : (∀ other ∈ calls.tasks.suspended, other = task) ∨
      ∃ other ∈ calls.tasks.suspended, other ≠ task ∧
        (other ∈ calls.tasks.woken ∨ calls.acceptWaker = some other)) :
    (calls.cancel task).Covered d session side where
  wakers := covered.wakers
  reached := by
    rcases relieved with alone | ⟨other, suspended, differs, woken | kept⟩
    · exact Or.inl (suspended_leave_nil alone)
    · exact Or.inr (Or.inl ⟨other, Waiters.mem_suspended_leave.mpr ⟨suspended, differs⟩,
        Waiters.mem_woken_leave.mpr ⟨woken, differs⟩⟩)
    · exact Or.inr (Or.inr ⟨other, Waiters.mem_suspended_leave.mpr ⟨suspended, differs⟩, kept⟩)
  last other suspended kept := by
    obtain ⟨suspended, differs⟩ := Waiters.mem_suspended_leave.mp suspended
    refine (covered.last other suspended kept).imp_left fun woken => ?_
    exact Waiters.mem_woken_leave.mpr ⟨woken, differs⟩

/-- No wake reaches the tasks that wait. -/
structure Stranded (calls : Calls) : Prop where
  waiting : calls.tasks.suspended ≠ []
  asleep : ∀ task ∈ calls.tasks.suspended, task ∉ calls.tasks.woken
  acceptWaker : ∀ task ∈ calls.tasks.suspended, calls.acceptWaker ≠ some task
  setWaker : ∀ task ∈ calls.tasks.suspended, calls.setWaker ≠ some task

theorem stranded_serve (others : ∃ other ∈ calls.tasks.suspended, other ≠ task)
    (asleep : ∀ other ∈ calls.tasks.suspended, other ≠ task → other ∉ calls.tasks.woken) :
    Stranded ⟨calls.tasks.leave task, some task, some task⟩ := by
  obtain ⟨other, suspended, differs⟩ := others
  have gone : ∀ left ∈ (calls.tasks.leave task).suspended, some task ≠ some left := fun left member same =>
    (Waiters.mem_suspended_leave.mp member).2 (Option.some.inj same).symm
  refine ⟨List.ne_nil_of_mem (Waiters.mem_suspended_leave.mpr ⟨suspended, differs⟩), ?_, gone, gone⟩
  intro left member woken
  obtain ⟨waits, remains⟩ := Waiters.mem_suspended_leave.mp member
  exact asleep left waits remains (Waiters.mem_woken_leave.mp woken).1

theorem Covered.stranded_cancel (covered : calls.Covered d session side)
    (others : ∃ other ∈ calls.tasks.suspended, other ≠ task)
    (abandoned : ∀ other ∈ calls.tasks.suspended, other ≠ task →
      other ∉ calls.tasks.woken ∧ calls.acceptWaker ≠ some other) : (calls.cancel task).Stranded := by
  obtain ⟨other, suspended, differs⟩ := others
  have unkept : ∀ left ∈ (calls.cancel task).tasks.suspended, calls.acceptWaker ≠ some left := by
    intro left member
    obtain ⟨waits, remains⟩ := Waiters.mem_suspended_leave.mp member
    exact (abandoned left waits remains).2
  refine ⟨List.ne_nil_of_mem (Waiters.mem_suspended_leave.mpr ⟨suspended, differs⟩), ?_, unkept, ?_⟩
  · intro left member woken
    obtain ⟨waits, remains⟩ := Waiters.mem_suspended_leave.mp member
    exact (abandoned left waits remains).1 (Waiters.mem_woken_leave.mp woken).1
  · intro left member kept
    exact unkept left member (covered.wakers.symm.trans kept)

end Calls

/-! ## The session -/

section Turns

variable {clones next : Clones backend} {event : Turn backend}

/-- What a run keeps in which no task leaves others behind. -/
structure Clones.Guarded (session : VarInt) (clones : Clones backend) : Prop where
  valid : clones.state.Valid session
  covered : clones.state.lost = none →
    ∀ d, (clones.calls d).Covered d session (clones.state.side d)

theorem opening_guarded : (opening : Clones backend).Guarded session where
  valid := start_valid
  covered _ d := by cases d <;> exact Calls.covered_nil

theorem Clones.Guarded.woken (guarded : clones.Guarded session) : clones.Woken session := by
  intro d returnable waiting
  obtain ⟨isOpen, id, deliverable⟩ := returnable
  have covered := guarded.covered isOpen d
  rcases covered.reached with empty | woken | ⟨task, suspended, kept⟩
  · exact absurd empty waiting
  · exact woken
  · rcases covered.last task suspended kept with woken | nothing
    · exact ⟨task, suspended, woken⟩
    · exact absurd deliverable (nothing.2 id)

theorem Clones.Woken.awake (woken : clones.Woken session) : clones.Awake session := by
  intro d returnable waiting
  obtain ⟨task, suspended, awake⟩ := woken d returnable waiting
  exact ⟨task, suspended, Or.inl awake⟩

/-- A poll returns a stream exactly when there is one to return. -/
theorem poll_ready {s next : State backend} {completions : List Nat} (valid : s.Valid session)
    (isOpen : s.lost = none) (stepped : step session s (.poll d completions) = some next) :
    (∃ id, (next.side d).polled = some (.ready id)) ↔ ∃ id, (s.side d).Deliverable d session id := by
  obtain ⟨polled, _, _⟩ := step_poll_cases stepped
  have validNext := step_valid valid stepped d
  have arrivals := Side.poll_arrivals polled
  constructor
  · intro ready
    obtain ⟨id, ready⟩ := ready
    have outcome := polled
    rw [isOpen] at outcome
    cases Side.poll_outcome outcome with
    | parked parked _ _ _ => rw [parked] at ready; cases ready
    | ready other _ delivered =>
        have fresh := validNext.delivered_nodup
        rw [delivered] at fresh
        have outside : other ∉ (s.side d).delivered := fun inside =>
          List.disjoint_of_nodup_append fresh inside List.mem_cons_self
        have member : other ∈ (next.side d).delivered := by
          rw [delivered]
          exact List.mem_append_right _ List.mem_cons_self
        have known := List.getElem?_eq_getElem (validNext.known other (Side.delivered_tracked member))
        obtain ⟨stream, found, same⟩ := Side.arrival_found arrivals.symm known
        obtain ⟨header, rest, isHeader, arrived, _⟩ := validNext.headerRead known member
        refine ⟨other, stream, found,
          (Incoming.Complete.congr same).mpr ⟨?_, header, rest, isHeader, arrived⟩, outside⟩
        intro reset
        have before : (s.side d).LostBefore other :=
          ⟨outside, stream, found, (Incoming.WasReset.congr same).mpr reset⟩
        exact (before.poll (valid d) polled).1 member
  · intro deliverable
    obtain ⟨id, stream, found, complete, outside⟩ := deliverable
    obtain ⟨after, known, same⟩ := Side.arrival_found arrivals found
    rw [isOpen] at polled
    cases Side.poll_outcome polled with
    | parked _ emptied waiting delivered =>
        have member := validNext.complete_delivered emptied waiting known ((Incoming.Complete.congr same).mpr complete)
        rw [delivered] at member
        exact absurd member outside
    | ready other ready _ => exact ⟨other, ready⟩

theorem turn_cancel_cases {task : Nat} (turned : turn session clones (.cancel d task) = some next) :
    task ∈ (clones.calls d).tasks.suspended ∧ next = clones.setCalls ((clones.calls d).cancel task) d := by
  rw [turn] at turned
  split at turned
  next suspended =>
    cases turned
    exact ⟨suspended, rfl⟩
  next => cases turned

/-- The tasks take their turns on the shared state of the session. -/
theorem turn_state (turned : turn session clones event = some next) :
    next.state = clones.state ∨ ∃ happening, step session clones.state happening = some next.state := by
  cases event with
  | network d happening =>
      obtain ⟨state, stepped, rfl⟩ := Option.map_eq_some_iff.mp turned
      rw [Clones.state_setCalls]
      exact Or.inr ⟨_, stepped⟩
  | lose error =>
      obtain ⟨state, stepped, rfl⟩ := Option.map_eq_some_iff.mp turned
      exact Or.inr ⟨_, stepped⟩
  | poll d task completions =>
      obtain ⟨state, stepped, rfl⟩ := Option.map_eq_some_iff.mp turned
      rw [Clones.state_setCalls]
      exact Or.inr ⟨_, stepped⟩
  | cancel d task =>
      obtain ⟨_, rfl⟩ := turn_cancel_cases turned
      exact Or.inl (Clones.state_setCalls _ _ _)

theorem turn_valid (valid : clones.state.Valid session) (turned : turn session clones event = some next) :
    next.state.Valid session := by
  rcases turn_state turned with same | ⟨happening, stepped⟩
  · rwa [same]
  · exact step_valid valid stepped

theorem guarded_turn (guarded : clones.Guarded session) (turned : turn session clones event = some next)
    (relieved : clones.LeavesNoneBehind session event) : next.Guarded session := by
  refine ⟨turn_valid guarded.valid turned, fun isOpen other => ?_⟩
  cases event with
  | network d happening =>
      obtain ⟨state, stepped, rfl⟩ := Option.map_eq_some_iff.mp turned
      obtain ⟨wasOpen, side, happened, rfl⟩ := step_network_cases stepped
      rw [Clones.calls_setCalls, Clones.state_setCalls, State.side_setSide]
      split
      next same =>
        subst same
        exact (guarded.covered wasOpen _).network (guarded.valid _) happened
      next =>
        rw [Clones.calls_state]
        exact guarded.covered wasOpen other
  | lose error =>
      obtain ⟨state, stepped, rfl⟩ := Option.map_eq_some_iff.mp turned
      obtain ⟨_, rfl⟩ := step_lose_cases stepped
      cases isOpen
  | poll d task completions =>
      obtain ⟨state, stepped, rfl⟩ := Option.map_eq_some_iff.mp turned
      rw [Clones.state_setCalls] at isOpen
      obtain ⟨polled, lost, elsewhere⟩ := step_poll_cases stepped
      have wasOpen : clones.state.lost = none := lost.symm.trans isOpen
      rw [Clones.calls_setCalls, Clones.state_setCalls]
      split
      next same =>
        subst same
        rw [wasOpen] at polled
        cases Side.poll_outcome polled with
        | parked parked emptied waiting _ =>
            rw [parked]
            exact Calls.covered_park (step_valid guarded.valid stepped _) emptied waiting
        | ready id ready _ =>
            have returnable := (poll_ready guarded.valid wasOpen stepped).mp ⟨id, ready⟩
            rw [ready]
            exact Calls.covered_serve (relieved ⟨wasOpen, returnable⟩)
      next differs =>
        rw [Clones.calls_state, elsewhere other differs]
        exact guarded.covered wasOpen other
  | cancel d task =>
      obtain ⟨_, rfl⟩ := turn_cancel_cases turned
      rw [Clones.state_setCalls] at isOpen
      rw [Clones.calls_setCalls, Clones.state_setCalls]
      split
      next same =>
        subst same
        exact (guarded.covered isOpen _).cancel (relieved isOpen)
      next => exact guarded.covered isOpen other

theorem stranded_turn (guarded : clones.Guarded session) (turned : turn session clones event = some next)
    (unrelieved : ¬ clones.LeavesNoneBehind session event) :
    ∃ d, next.state.lost = none ∧ (next.calls d).Stranded := by
  cases event with
  | network d happening => exact absurd trivial unrelieved
  | lose error => exact absurd trivial unrelieved
  | poll d task completions =>
      simp only [Clones.LeavesNoneBehind, Classical.not_imp, not_or, not_forall, not_exists, not_and] at unrelieved
      obtain ⟨⟨isOpen, deliverable⟩, others, asleep⟩ := unrelieved
      obtain ⟨state, stepped, rfl⟩ := Option.map_eq_some_iff.mp turned
      obtain ⟨id, ready⟩ := (poll_ready guarded.valid isOpen stepped).mpr deliverable
      refine ⟨d, ?_, ?_⟩
      · rw [Clones.state_setCalls]
        exact (step_poll_cases stepped).2.1.trans isOpen
      · rw [Clones.calls_setCalls, if_pos rfl, ready]
        exact Calls.stranded_serve others asleep
  | cancel d task =>
      simp only [Clones.LeavesNoneBehind, Classical.not_imp, not_or, not_forall, not_exists, not_and] at unrelieved
      obtain ⟨isOpen, others, abandoned⟩ := unrelieved
      obtain ⟨_, rfl⟩ := turn_cancel_cases turned
      refine ⟨d, by rw [Clones.state_setCalls, isOpen], ?_⟩
      rw [Clones.calls_setCalls, if_pos rfl]
      exact (guarded.covered isOpen d).stranded_cancel others abandoned

theorem turn_network {happening : NetworkEvent} {side : Side backend} (isOpen : clones.state.lost = none)
    (happened : (clones.state.side d).network happening = some side)
    (unheard : (clones.calls d).network (clones.state.side d) happening = clones.calls d) :
    ∃ next, turn session clones (.network d happening) = some next ∧
      next.state = clones.state.setSide side d ∧ next.calls d = clones.calls d := by
  have stepped : step session clones.state (.network d happening) = some (clones.state.setSide side d) := by
    rw [step, isOpen]
    dsimp only
    rw [happened]
    rfl
  refine ⟨_, by rw [turn, stepped]; rfl, ?_, ?_⟩
  · rw [Clones.state_setCalls]
  · rw [Clones.calls_setCalls, if_pos rfl, unheard]

/-- A stream that arrives with its header finds nobody awake. -/
theorem stranded_missed (valid : clones.state.Valid session) (isOpen : clones.state.lost = none)
    (stranded : (clones.calls d).Stranded) :
    ∃ arrivals last, (∀ event ∈ arrivals, ∃ happening, event = Turn.network d happening) ∧
      run (turn session) clones arrivals = some last ∧ ¬ last.Awake session := by
  let side := clones.state.side d
  let header := d.typ.encode ++ session.encode
  let arrived : Side backend := { side with
    streams := side.streams ++ [.opened], queue := side.queue ++ [side.streams.length] }
  let received : Side backend := { arrived with
    streams := arrived.streams.modify side.streams.length (Incoming.receive header) }
  have opened : arrived.streams[side.streams.length]? = some .opened := List.getElem?_concat_length
  have unheard : (clones.calls d).network side .arrive = clones.calls d := by
    rw [Calls.network, Waiters.wake_lost stranded.acceptWaker]
  obtain ⟨second, turned, secondState, secondCalls⟩ :=
    @turn_network _ _ session clones .arrive arrived isOpen rfl unheard
  have secondSide : second.state.side d = arrived := by
    rw [secondState, State.side_setSide, if_pos rfl]
  have unread : side.streams.length ∉ arrived.pending := fun member =>
    Nat.lt_irrefl _ ((valid d).known _ (Side.pending_tracked member))
  have change : (second.state.side d).network (.receive side.streams.length header) = some received := by
    rw [secondSide, Side.network, Side.change, opened]
    rfl
  have silent : (second.calls d).network (second.state.side d) (.receive side.streams.length header) =
      second.calls d := by
    rw [secondSide, Calls.network, if_neg unread]
  have stillOpen : second.state.lost = none := by
    rw [secondState, State.lost_setSide, isOpen]
  obtain ⟨last, turnedAgain, lastState, lastCalls⟩ :=
    @turn_network _ _ session second (.receive side.streams.length header) received stillOpen change silent
  have lastSide : last.state.side d = received := by
    rw [lastState, State.side_setSide, if_pos rfl]
  refine ⟨[.network d .arrive, .network d (.receive side.streams.length header)], last, by simp, ?_, ?_⟩
  · rw [run_cons_some turned, run_cons_some turnedAgain, run]
  · intro awake
    have deliverable : received.Deliverable d session side.streams.length := by
      refine ⟨Incoming.receive header .opened, ?_, ⟨Incoming.not_wasReset_of_waiting rfl, header, [],
        Direction.header_encode, by simp [Incoming.receive, Incoming.opened]⟩, ?_⟩
      · rw [List.getElem?_modify_eq, opened]
        rfl
      · exact fun member => Nat.lt_irrefl _ ((valid d).known _ (Side.delivered_tracked member))
    have calls : last.calls d = clones.calls d := lastCalls.trans secondCalls
    have openLast : last.state.lost = none := by rw [lastState, State.lost_setSide, stillOpen]
    obtain ⟨task, suspended, reached⟩ := awake d ⟨openLast, _, by rw [lastSide]; exact deliverable⟩
      (by rw [calls]; exact stranded.waiting)
    rw [calls] at suspended reached
    rcases reached with woken | kept | kept
    · exact stranded.asleep task suspended woken
    · exact stranded.acceptWaker task suspended kept
    · exact stranded.setWaker task suspended kept

def NetworkTurn (event : Turn backend) : Prop :=
  ∃ d happening, event = .network d happening

/-- No wakeup is lost in a run in which no task leaves others behind.  At a
point where one does, the next stream of the peer may find nobody awake. -/
theorem awake_leavesNoneBehind {last : Clones backend} {events : List (Turn backend)}
    (ran : run (turn session) opening events = some last) :
    (EachStep (turn session) (Clones.LeavesNoneBehind session) opening events →
      Always (turn session) (fun clones => clones.Awake session ∧ clones.Woken session) opening events) ∧
    (AlwaysOnward (turn session) NetworkTurn (Clones.Awake session) opening events →
      EachStep (turn session) (Clones.LeavesNoneBehind session) opening events) := by
  have exact_condition : ∀ holds : Clones backend → Prop,
      (∀ clones, clones.Guarded session → holds clones) → (∀ clones, holds clones → clones.Awake session) →
      (EachStep (turn session) (Clones.LeavesNoneBehind session) opening events ↔
        AlwaysOnward (turn session) NetworkTurn holds opening events) := by
    intro holds safe awake
    refine eachStep_iff_alwaysOnward (fun guarded turned relieved => guarded_turn guarded turned relieved)
      (fun guarded => safe _ guarded) ?_ ?_ opening_guarded ran
    · intro clones event network
      obtain ⟨d, happening, rfl⟩ := network
      trivial
    · intro clones event next guarded turned unrelieved
      obtain ⟨d, isOpen, stranded⟩ := stranded_turn guarded turned unrelieved
      obtain ⟨arrivals, missed, network, reached, lacks⟩ :=
        stranded_missed (turn_valid guarded.valid turned) isOpen stranded
      refine ⟨arrivals, missed, fun event member => ⟨d, network event member⟩, reached, ?_⟩
      exact fun kept => lacks (awake missed kept)
  refine ⟨fun met => ?_, fun onward => ?_⟩
  · refine ((exact_condition _ ?_ ?_).mp met).always
    · exact fun clones guarded => ⟨guarded.woken.awake, guarded.woken⟩
    · exact fun clones both => both.1
  · refine (exact_condition (Clones.Awake session) ?_ ?_).mpr onward
    · exact fun clones guarded => guarded.woken.awake
    · exact fun clones awake => awake

/-- Two tasks wait; the one whose waker is kept gets the first stream, and the
second stream wakes nobody. -/
def missedWakeup : List (Turn .quinn) :=
  [.poll .uni 0 [], .poll .uni 1 [], .network .uni .arrive,
    .network .uni (.receive 0 [0x40, 0x54, 0x00]), .poll .uni 1 [0], .network .uni .arrive,
    .network .uni (.receive 1 [0x40, 0x54, 0x00])]

theorem awake_missed :
    ∃ clones, run (turn (VarInt.fromU32 0)) opening missedWakeup = some clones ∧
      (clones.calls .uni).tasks = ⟨[0], []⟩ ∧ ¬ clones.Awake (VarInt.fromU32 0) := by
  have reached : (run (turn (VarInt.fromU32 0)) opening missedWakeup).map
      (fun clones => (clones.uni, clones.state.lost, clones.state.uni.delivered,
        clones.state.uni.streams[1]?)) =
      some (⟨⟨[0], []⟩, some 1, some 1⟩, none, [0],
        some ⟨[0x40, 0x54, 0x00], ⟨[[0x40, 0x54, 0x00]], .waiting⟩⟩) := by
    decide +kernel
  obtain ⟨clones, ran, final⟩ := Option.map_eq_some_iff.mp reached
  simp only [Prod.mk.injEq] at final
  obtain ⟨calls, isOpen, delivered, second⟩ := final
  have callsUni : clones.calls .uni = ⟨⟨[0], []⟩, some 1, some 1⟩ := calls
  refine ⟨clones, ran, by rw [callsUni], fun awake => ?_⟩
  have isHeader : Direction.uni.Header (VarInt.fromU32 0) [0x40, 0x54, 0x00] := Direction.header_encode
  have returnable : clones.Returnable (VarInt.fromU32 0) .uni := by
    refine ⟨isOpen, 1, _, second, ⟨Incoming.not_wasReset_of_waiting rfl, _, [], isHeader, rfl⟩, ?_⟩
    change 1 ∉ clones.state.uni.delivered
    rw [delivered]
    decide
  obtain ⟨task, suspended, reached⟩ := awake .uni returnable (by rw [callsUni]; decide)
  rw [callsUni] at suspended reached
  cases List.mem_singleton.mp suspended
  simp at reached

theorem Calls.suspended_network (calls : Calls) (side : Side backend) (happening : NetworkEvent) :
    (calls.network side happening).tasks.suspended = calls.tasks.suspended := by
  cases happening with
  | arrive => exact Waiters.suspended_wake _ _
  | _ =>
      rw [Calls.network]
      split
      · exact Waiters.suspended_wake _ _
      · rfl

theorem Calls.suspended_polled {calls : Calls} {task other : Nat} {result : Option (Polled backend)}
    (suspended : other ∈ (calls.polled task result).tasks.suspended) :
    other = task ∨ other ∈ calls.tasks.suspended := by
  have parked : other ∈ (calls.tasks.park task).suspended → other = task ∨ other ∈ calls.tasks.suspended := by
    intro member
    rcases List.mem_cons.mp member with rfl | left
    · exact Or.inl rfl
    · exact Or.inr (Waiters.mem_suspended_leave.mp left).1
  rcases result with _ | _ | _ | _
  · exact parked suspended
  · exact parked suspended
  · exact Or.inr (Waiters.mem_suspended_leave.mp suspended).1
  · exact Or.inr (Waiters.mem_suspended_leave.mp suspended).1

theorem turn_suspended {other : Nat} (turned : turn session clones event = some next)
    (suspended : other ∈ (next.calls d).tasks.suspended) :
    other ∈ (clones.calls d).tasks.suspended ∨ ∃ completions, event = .poll d other completions := by
  cases event with
  | network moved happening =>
      obtain ⟨state, _, rfl⟩ := Option.map_eq_some_iff.mp turned
      rw [Clones.calls_setCalls] at suspended
      split at suspended
      next same =>
        subst same
        rw [Calls.suspended_network] at suspended
        exact Or.inl suspended
      next => exact Or.inl suspended
  | lose error =>
      obtain ⟨state, _, rfl⟩ := Option.map_eq_some_iff.mp turned
      left
      cases d <;> simpa [Clones.calls, Calls.lose] using suspended
  | poll moved task completions =>
      obtain ⟨state, _, rfl⟩ := Option.map_eq_some_iff.mp turned
      rw [Clones.calls_setCalls] at suspended
      split at suspended
      next same =>
        subst same
        rcases Calls.suspended_polled suspended with rfl | before
        · exact Or.inr ⟨completions, rfl⟩
        · exact Or.inl before
      next => exact Or.inl suspended
  | cancel moved task =>
      obtain ⟨_, rfl⟩ := turn_cancel_cases turned
      rw [Clones.calls_setCalls] at suspended
      split at suspended
      next same =>
        subst same
        exact Or.inl (Waiters.mem_suspended_leave.mp suspended).1
      next => exact Or.inl suspended

/-- Where one task at most accepts in each direction, it leaves nobody behind. -/
theorem leavesNoneBehind_alone {task : Direction → Nat} {start last : Clones backend}
    {events : List (Turn backend)}
    (alone : ∀ d other completions, Turn.poll d other completions ∈ events → other = task d)
    (before : ∀ d, ∀ other ∈ (start.calls d).tasks.suspended, other = task d)
    (ran : run (turn session) start events = some last) :
    EachStep (turn session) (Clones.LeavesNoneBehind session) start events := by
  induction events generalizing start with
  | nil =>
      intro front event back _ split
      simp at split
  | cons event events ih =>
      obtain ⟨next, turned, ran⟩ := run_cons_eq_some ran
      rw [eachStep_cons turned]
      refine ⟨?_, ih (fun d other completions member => alone d other completions
        (List.mem_cons_of_mem _ member)) ?_ ran⟩
      · cases event with
        | network d happening => trivial
        | lose error => trivial
        | poll d other completions =>
            intro _
            left
            rw [alone d other completions List.mem_cons_self]
            exact before d
        | cancel d other =>
            intro _
            left
            rw [before d other (turn_cancel_cases turned).1]
            exact before d
      · intro d other suspended
        rcases turn_suspended turned suspended with earlier | ⟨completions, rfl⟩
        · exact before d other earlier
        · exact alone d other completions List.mem_cons_self

/-- One task polls, waits and gets the stream that comes then. -/
theorem awake_alone :
    Always (turn (VarInt.fromU32 0)) (fun clones : Clones .quion =>
      clones.Awake (VarInt.fromU32 0) ∧ clones.Woken (VarInt.fromU32 0)) opening
      [.poll .uni 0 [], .network .uni .arrive, .network .uni (.receive 0 [0x40, 0x54, 0x00]),
        .poll .uni 0 [0]] := by
  have ran : (run (turn (VarInt.fromU32 0)) (opening : Clones .quion)
      [.poll .uni 0 [], .network .uni .arrive, .network .uni (.receive 0 [0x40, 0x54, 0x00]),
        .poll .uni 0 [0]]).isSome = true := by
    decide +kernel
  refine (awake_leavesNoneBehind (Option.some_get ran).symm).1 ?_
  refine @leavesNoneBehind_alone _ _ (fun _ => 0) _ _ _ ?_ ?_ (Option.some_get ran).symm
  · intro d other completions member
    simp at member
    omega
  · intro d other member
    cases d <;> cases member

end Turns

end Webtrans.Session.Accept
