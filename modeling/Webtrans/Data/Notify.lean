import Webtrans.Data.Transition

namespace Webtrans.Data

/-! Callers that wait for an answer which another task announces once.

A caller prepares to be notified, then looks for the answer in two places, one
after the other, and sleeps only if it has found none.  The announcement wakes
all who have prepared by then. -/

variable {σ : Type u} {ε : Type v} {ρ : Type w}

/-- What the callers see of a system. -/
structure Answering (σ : Type u) (ε : Type v) (ρ : Type w) where
  step : σ → ε → Option σ
  answer : σ → Option ρ
  /-- Where a caller looks that found no answer. -/
  fallback : σ → Option ρ
  /-- The announcing task has nothing left to do but to announce. -/
  announces : σ → Bool
  callable : σ → Bool
  /-- The event may happen while calls are pending. -/
  free : σ → ε → Bool

inductive Caller (ρ : Type w) where
  | checking (woken : Bool)
  /-- The first look found nothing. -/
  | falling (woken : Bool)
  | waiting (woken : Bool)
  | returned (value : ρ)
  | cancelled
deriving DecidableEq

namespace Caller

def pending : Caller ρ → Bool
  | checking _ | falling _ | waiting _ => true
  | _ => false

def notify : Caller ρ → Caller ρ
  | checking _ => checking true
  | falling _ => falling true
  | waiting _ => waiting true
  | caller => caller

/-- Steps that the caller takes at most once the answer is announced. -/
def work : Caller ρ → Nat
  | falling _ => 3
  | waiting _ => 2
  | checking _ => 1
  | _ => 0

def works : List (Caller ρ) → Nat
  | [] => 0
  | caller :: callers => caller.work + works callers

/-- The call goes on or has returned. -/
def Kept (caller : Caller ρ) : Prop :=
  caller.pending = true ∨ ∃ value, caller = .returned value

end Caller

structure Audience (σ : Type u) (ρ : Type w) where
  base : σ
  announced : Bool := false
  callers : List (Caller ρ) := []

inductive Attendance (ε : Type v) where
  | base (event : ε)
  | announce
  | call
  | check (id : Nat)
  | fall (id : Nat)
  | wake (id : Nat)
  | cancel (id : Nat)

/-- A caller that goes on by itself. -/
def Attendance.Goes : Attendance ε → Prop
  | check _ | fall _ | wake _ => True
  | _ => False

/-- The callers, the announcing task and these events of the system go on. -/
def Attendance.Own (own : ε → Prop) : Attendance ε → Prop
  | base event => own event
  | announce | check _ | fall _ | wake _ => True
  | call | cancel _ => False

theorem Attendance.Goes.own {own : ε → Prop} {event : Attendance ε} (goes : event.Goes) : event.Own own := by
  cases event with
  | check id | fall id | wake id => trivial
  | _ => cases goes

namespace Answering

/-- The caller looks for the answer, and goes on where there is none. -/
def look (found : Option ρ) (otherwise : Caller ρ) : Caller ρ :=
  match found with
  | some value => .returned value
  | none => otherwise

def attend (system : Answering σ ε ρ) (s : Audience σ ρ) : Attendance ε → Option (Audience σ ρ)
  | .base event =>
      if s.callers.any Caller.pending = true ∧ system.free s.base event = false then none
      else (system.step s.base event).map fun base => { s with base }
  | .announce =>
      if system.announces s.base = true ∧ s.announced = false then
        some { s with announced := true, callers := s.callers.map Caller.notify }
      else none
  | .call => if system.callable s.base = true then some { s with callers := s.callers ++ [.checking false] } else none
  | .check id =>
      match s.callers[id]? with
      | some (.checking woken) =>
          some { s with callers := s.callers.set id (look (system.answer s.base) (.falling woken)) }
      | _ => none
  | .fall id =>
      match s.callers[id]? with
      | some (.falling woken) =>
          some { s with callers := s.callers.set id (look (system.fallback s.base) (.waiting woken)) }
      | _ => none
  | .wake id =>
      match s.callers[id]? with
      | some (.waiting true) => some { s with callers := s.callers.set id (.checking false) }
      | _ => none
  | .cancel id =>
      match s.callers[id]? with
      | some caller => if caller.pending = true then some { s with callers := s.callers.set id .cancelled } else none
      | none => none

/-- Once the answer can be announced there is one for good. -/
structure Lawful (system : Answering σ ε ρ) (invariant : σ → Prop) : Prop where
  kept : ∀ {s event t}, invariant s → system.step s event = some t → invariant t
  answered : ∀ {s}, invariant s → system.announces s = true → ∃ value, system.answer s = some value
  stays : ∀ {s event t}, invariant s → system.announces s = true → system.step s event = some t →
    system.announces t = true ∧ system.answer t = system.answer s

/-- Nobody sleeps who will not be woken. -/
structure Attended (system : Answering σ ε ρ) (invariant : σ → Prop) (s : Audience σ ρ) : Prop where
  base : invariant s.base
  announced : s.announced = true → system.announces s.base = true
  awake : s.announced = true → ∀ caller ∈ s.callers, caller ≠ .waiting false ∧ caller ≠ .falling false

/-- What a step does. -/
inductive Attends (system : Answering σ ε ρ) (s : Audience σ ρ) : Audience σ ρ → Prop where
  | base {event : ε} {base : σ} (stepped : system.step s.base event = some base) : Attends system s { s with base }
  | announces (ready : system.announces s.base = true) (silent : s.announced = false) :
      Attends system s { s with announced := true, callers := s.callers.map Caller.notify }
  | calls : Attends system s { s with callers := s.callers ++ [.checking false] }
  | checks {id : Nat} {woken : Bool} (found : s.callers[id]? = some (.checking woken)) :
      Attends system s { s with callers := s.callers.set id (look (system.answer s.base) (.falling woken)) }
  | falls {id : Nat} {woken : Bool} (found : s.callers[id]? = some (.falling woken)) :
      Attends system s { s with callers := s.callers.set id (look (system.fallback s.base) (.waiting woken)) }
  | wakes {id : Nat} (found : s.callers[id]? = some (.waiting true)) :
      Attends system s { s with callers := s.callers.set id (.checking false) }
  | cancels {id : Nat} {caller : Caller ρ} (found : s.callers[id]? = some caller) (pending : caller.pending = true) :
      Attends system s { s with callers := s.callers.set id .cancelled }

variable {system : Answering σ ε ρ} {invariant : σ → Prop} {s t : Audience σ ρ} {event : Attendance ε}

theorem attends_of_attend (attended : system.attend s event = some t) : system.Attends s t := by
  cases event with
  | base event =>
      rw [attend] at attended
      split at attended
      next => cases attended
      next =>
        obtain ⟨base, stepped, rfl⟩ := Option.map_eq_some_iff.mp attended
        exact .base stepped
  | announce =>
      rw [attend] at attended
      split at attended
      next may =>
        cases attended
        exact .announces may.1 may.2
      next => cases attended
  | call =>
      rw [attend] at attended
      split at attended
      next =>
        cases attended
        exact .calls
      next => cases attended
  | check id =>
      rw [attend] at attended
      split at attended
      next woken found =>
        cases attended
        exact .checks found
      next => cases attended
  | fall id =>
      rw [attend] at attended
      split at attended
      next woken found =>
        cases attended
        exact .falls found
      next => cases attended
  | wake id =>
      rw [attend] at attended
      split at attended
      next found =>
        cases attended
        exact .wakes found
      next => cases attended
  | cancel id =>
      rw [attend] at attended
      split at attended
      next caller found =>
        split at attended
        next pending =>
          cases attended
          exact .cancels found pending
        next => cases attended
      next => cases attended

theorem Attended.step (lawful : system.Lawful invariant) (attended : system.Attended invariant s)
    (attends : system.Attends s t) : system.Attended invariant t := by
  have set_ : ∀ {id : Nat} {caller : Caller ρ},
      (s.announced = true → caller ≠ .waiting false ∧ caller ≠ .falling false) →
      s.announced = true →
        ∀ other ∈ s.callers.set id caller, other ≠ .waiting false ∧ other ≠ .falling false := by
    intro id caller awake announced other member
    rcases List.mem_or_eq_of_mem_set member with before | rfl
    · exact attended.awake announced other before
    · exact awake announced
  cases attends with
  | base stepped =>
      refine ⟨lawful.kept attended.base stepped, fun announced => ?_, attended.awake⟩
      exact (lawful.stays attended.base (attended.announced announced) stepped).1
  | announces ready silent =>
      refine ⟨attended.base, fun _ => ready, fun _ caller member => ?_⟩
      obtain ⟨before, _, rfl⟩ := List.mem_map.mp member
      cases before <;> simp [Caller.notify]
  | calls =>
      refine ⟨attended.base, attended.announced, fun announced caller member => ?_⟩
      rcases List.mem_append.mp member with before | added
      · exact attended.awake announced caller before
      · rw [List.mem_singleton.mp added]
        simp
  | checks found =>
      refine ⟨attended.base, attended.announced, set_ fun announced => ?_⟩
      -- Behind the announcement the first look finds the answer.
      obtain ⟨value, answered⟩ := lawful.answered attended.base (attended.announced announced)
      simp [answered, look]
  | @falls id woken found =>
      refine ⟨attended.base, attended.announced, set_ fun announced => ?_⟩
      have known := (attended.awake announced _ (List.mem_of_getElem? found)).2
      cases fallen : system.fallback s.base with
      | some value => simp [look]
      | none =>
          cases woken with
          | false => exact absurd rfl known
          | true => simp [look]
  | wakes found => exact ⟨attended.base, attended.announced, set_ fun _ => by simp⟩
  | cancels found pending => exact ⟨attended.base, attended.announced, set_ fun _ => by simp⟩

theorem Attended.run (lawful : system.Lawful invariant) (attended : system.Attended invariant s)
    {events : List (Attendance ε)} (ran : Data.run system.attend s events = some t) :
    system.Attended invariant t := by
  refine run_invariant ?_ attended ran
  intro state event next attended stepped
  exact attended.step lawful (attends_of_attend stepped)

theorem attended_start {base : σ} (holds : invariant base) : system.Attended invariant { base } where
  base := holds
  announced announced := by cases announced
  awake announced := by cases announced

/-- What the callers of a state may have found once the answer is announced:
those that were between their two looks saw no answer at the first. -/
def Found (s : Audience σ ρ) (value : ρ) (t : Audience σ ρ) : Prop :=
  ∀ (id : Nat) (found : ρ), t.callers[id]? = some (.returned found) →
    s.callers[id]? = some (.returned found) ∨ (∃ woken, s.callers[id]? = some (.falling woken)) ∨ found = value

/-- Nobody begins to fall back behind the announcement. -/
def Fallen (s t : Audience σ ρ) : Prop :=
  ∀ (id : Nat) (woken : Bool), t.callers[id]? = some (.falling woken) →
    ∃ woken, s.callers[id]? = some (.falling woken)

theorem getElem?_set_cases {α : Type u} {callers : List α} {at_ id : Nat} {caller other : α}
    (known : (callers.set at_ caller)[id]? = some other) :
    (at_ = id ∧ caller = other) ∨ callers[id]? = some other := by
  rw [List.getElem?_set] at known
  split at known
  next same =>
    split at known
    next => exact .inl ⟨same, Option.some.inj known⟩
    next => cases known
  next => exact .inr known

theorem getElem?_append_cases {α : Type u} {callers : List α} {id : Nat} {caller other : α}
    (known : (callers ++ [caller])[id]? = some other) : callers[id]? = some other ∨ other = caller := by
  rcases Nat.lt_or_ge id callers.length with old | new
  · exact .inl ((List.getElem?_append_left old).symm.trans known)
  · rw [List.getElem?_append_right new] at known
    exact .inr (List.mem_singleton.mp (List.mem_of_getElem? known))

/-- Every caller that begins to look behind the announcement returns the one
answer. -/
theorem Attended.returns (lawful : system.Lawful invariant) (attended : system.Attended invariant s)
    (announced : s.announced = true) {value : ρ} (answered : system.answer s.base = some value)
    {events : List (Attendance ε)} (ran : Data.run system.attend s events = some t) :
    t.announced = true ∧ system.answer t.base = some value ∧ Found s value t := by
  have kept : system.Attended invariant t ∧ t.announced = true ∧ system.answer t.base = some value ∧
      Found s value t ∧ Fallen s t := by
    refine @run_invariant _ _ system.attend
      (fun state => system.Attended invariant state ∧ state.announced = true ∧
      system.answer state.base = some value ∧ Found s value state ∧ Fallen s state) ?_ _ _ _
      ⟨attended, announced, answered, fun _ _ known => .inl known, fun _ woken known => ⟨woken, known⟩⟩ ran
    intro state event next kept stepped
    obtain ⟨attended, announced, answered, found_, fallen_⟩ := kept
    have attends := attends_of_attend stepped
    have ready := attended.announced announced
    refine ⟨attended.step lawful attends, ?_⟩
    cases attends with
    | base moved => exact ⟨announced, (lawful.stays attended.base ready moved).2.trans answered, found_, fallen_⟩
    | announces _ silent =>
        rw [announced] at silent
        cases silent
    | calls =>
        refine ⟨announced, answered, fun id found known => ?_, fun id woken known => ?_⟩
        · rcases getElem?_append_cases known with before | added
          · exact found_ id found before
          · cases added
        · rcases getElem?_append_cases known with before | added
          · exact fallen_ id woken before
          · cases added
    | checks _ =>
        refine ⟨announced, answered, fun id found known => ?_, fun id woken known => ?_⟩ <;>
          rw [answered] at known
        · rcases getElem?_set_cases known with ⟨_, returned⟩ | before
          · exact .inr (.inr (Caller.returned.inj returned).symm)
          · exact found_ id found before
        · rcases getElem?_set_cases known with ⟨_, falling⟩ | before
          · cases falling
          · exact fallen_ id woken before
    | @falls at_ woken known_ =>
        obtain ⟨before_, fell⟩ := fallen_ at_ woken known_
        refine ⟨announced, answered, fun id found known => ?_, fun id woken known => ?_⟩
        · rcases getElem?_set_cases known with ⟨rfl, _⟩ | before
          · exact .inr (.inl ⟨before_, fell⟩)
          · exact found_ id found before
        · rcases getElem?_set_cases known with ⟨rfl, _⟩ | before
          · exact ⟨before_, fell⟩
          · exact fallen_ id woken before
    | wakes _ | cancels _ _ =>
        refine ⟨announced, answered, fun id found known => ?_, fun id woken known => ?_⟩
        · rcases getElem?_set_cases known with ⟨_, returned⟩ | before
          · cases returned
          · exact found_ id found before
        · rcases getElem?_set_cases known with ⟨_, falling⟩ | before
          · cases falling
          · exact fallen_ id woken before
  exact ⟨kept.2.1, kept.2.2.1, kept.2.2.2.1⟩

theorem works_set_lt {callers : List (Caller ρ)} {id : Nat} {before after : Caller ρ}
    (found : callers[id]? = some before) (less : after.work < before.work) :
    Caller.works (callers.set id after) < Caller.works callers := by
  induction callers generalizing id with
  | nil => cases found
  | cons caller callers ih =>
      cases id with
      | zero =>
          cases found
          exact Nat.add_lt_add_right less _
      | succ id => exact Nat.add_lt_add_left (ih (List.getElem?_cons_succ.symm.trans found)) _

/-- By their own steps all callers return. -/
theorem Attended.all_return (lawful : system.Lawful invariant) (attended : system.Attended invariant s)
    (announced : s.announced = true) :
    ∃ last, Reaches system.attend Attendance.Goes s last ∧
      ∀ caller ∈ last.callers, caller.pending = false := by
  have ends := @reaches_of_progress _ _ system.attend
    (fun state => system.Attended invariant state ∧ state.announced = true)
    (fun state => ∀ caller ∈ state.callers, caller.pending = false) Attendance.Goes
    (fun state => Caller.works state.callers) ?_ ?_ ?_ s ⟨attended, announced⟩
  · obtain ⟨last, reached, _, settled⟩ := ends
    exact ⟨last, reached, settled⟩
  · intro state event next kept stepped goes
    refine ⟨kept.1.step lawful (attends_of_attend stepped), ?_⟩
    cases attends_of_attend stepped with
    | announces _ _ => rfl
    | _ => exact kept.2
  · intro state event next kept stepped goes
    cases event with
    | check id =>
        rw [attend] at stepped
        split at stepped
        next woken found =>
          cases stepped
          obtain ⟨value, answered⟩ := lawful.answered kept.1.base (kept.1.announced kept.2)
          refine works_set_lt found ?_
          rw [answered]
          exact Nat.one_pos
        next => cases stepped
    | fall id =>
        rw [attend] at stepped
        split at stepped
        next woken found =>
          cases stepped
          refine works_set_lt found ?_
          cases system.fallback state.base with
          | some value => exact Nat.succ_pos 2
          | none => exact Nat.lt_succ_self 2
        next => cases stepped
    | wake id =>
        rw [attend] at stepped
        split at stepped
        next found =>
          cases stepped
          exact works_set_lt found Nat.one_lt_two
        next => cases stepped
    | _ => cases goes
  · intro state kept
    by_cases settled : ∀ caller ∈ state.callers, caller.pending = false
    · exact .inl settled
    · simp only [not_forall] at settled
      obtain ⟨caller, member, pending⟩ := settled
      obtain ⟨id, found⟩ := List.mem_iff_getElem?.mp member
      right
      cases caller with
      | checking woken => exact ⟨.check id, _, trivial, by rw [attend, found]⟩
      | falling woken => exact ⟨.fall id, _, trivial, by rw [attend, found]⟩
      | waiting woken =>
          cases woken with
          | false => exact absurd rfl (kept.1.awake kept.2 _ member).1
          | true => exact ⟨.wake id, _, trivial, by rw [attend, found]⟩
      | returned value => exact absurd rfl pending
      | cancelled => exact absurd rfl pending

/-- The system goes on under its audience. -/
theorem run_base {events : List ε} {base : σ}
    (free : ∀ event ∈ events, ∀ state, system.free state event = true)
    (ran : Data.run system.step s.base events = some base) :
    Data.run system.attend s (events.map .base) = some { s with base } := by
  induction events generalizing s with
  | nil =>
      cases ran
      rfl
  | cons event events ih =>
      obtain ⟨next, stepped, ran⟩ := run_cons_eq_some ran
      obtain ⟨first, later⟩ := List.forall_mem_cons.mp free
      have attended : system.attend s (.base event) = some { s with base := next } := by
        rw [attend, first, stepped]
        simp
      rw [List.map_cons, run_cons_some attended]
      exact @ih { s with base := next } later ran

theorem kept_look (found : Option ρ) {otherwise : Caller ρ} (pending : otherwise.pending = true) :
    (look found otherwise).Kept := by
  cases found with
  | none => exact .inl pending
  | some value => exact .inr ⟨value, rfl⟩

theorem kept_set {callers : List (Caller ρ)} {at_ id : Nat} {caller : Caller ρ} (kept : caller.Kept)
    (before : ∃ other, callers[id]? = some other ∧ other.Kept) :
    ∃ other, (callers.set at_ caller)[id]? = some other ∧ other.Kept := by
  obtain ⟨other, found, keeps⟩ := before
  rw [List.getElem?_set]
  by_cases same : at_ = id
  · subst same
    have inside := (List.getElem?_eq_some_iff.mp found).1
    exact ⟨caller, by simp [inside], kept⟩
  · exact ⟨other, by simp [same, found], keeps⟩

/-- Nobody is given up by these steps. -/
theorem kept_calls {own : ε → Prop} (reached : Reaches system.attend (Attendance.Own own) s t) {id : Nat}
    {caller : Caller ρ} (calls : s.callers[id]? = some caller) (pending : caller.pending = true) :
    ∃ other, t.callers[id]? = some other ∧ other.Kept := by
  obtain ⟨events, owned, ran⟩ := reached
  refine @run_following _ _ system.attend (fun state => ∃ other, state.callers[id]? = some other ∧ other.Kept)
    (Attendance.Own own) ?_ _ _ _ ⟨caller, calls, .inl pending⟩ owned ran
  intro state event next before stepped own
  cases event with
  | base event =>
      rw [attend] at stepped
      split at stepped
      next => cases stepped
      next =>
        obtain ⟨_, _, rfl⟩ := Option.map_eq_some_iff.mp stepped
        exact before
  | announce =>
      rw [attend] at stepped
      split at stepped
      next =>
        cases stepped
        obtain ⟨other, found, keeps⟩ := before
        refine ⟨other.notify, by rw [List.getElem?_map, found]; rfl, ?_⟩
        cases other with
        | returned value => exact .inr ⟨value, rfl⟩
        | cancelled => exact keeps
        | _ => exact .inl rfl
      next => cases stepped
  | check id =>
      rw [attend] at stepped
      split at stepped
      next =>
        cases stepped
        exact kept_set (kept_look _ rfl) before
      next => cases stepped
  | fall id =>
      rw [attend] at stepped
      split at stepped
      next =>
        cases stepped
        exact kept_set (kept_look _ rfl) before
      next => cases stepped
  | wake id =>
      rw [attend] at stepped
      split at stepped
      next =>
        cases stepped
        exact kept_set (.inl rfl) before
      next => cases stepped
  | call | cancel id => cases own

/-- If the system comes to its end by its own steps, every call returns. -/
theorem Attended.settles (lawful : system.Lawful invariant) (attended : system.Attended invariant s)
    {own : ε → Prop}
    (free : ∀ event, own event → ∀ state, system.free state event = true)
    (ends : ∃ base, Reaches system.step own s.base base ∧ system.announces base = true) :
    ∃ last, Reaches system.attend (Attendance.Own own) s last ∧ last.announced = true ∧
      ∀ (id : Nat) (caller : Caller ρ), s.callers[id]? = some caller → caller.pending = true →
        ∃ value, last.callers[id]? = some (.returned value) := by
  obtain ⟨base, ⟨events, owned, ran⟩, ready⟩ := ends
  have done_ : Reaches system.attend (Attendance.Own own) s { s with base } := by
    refine ⟨events.map .base, ?_, run_base (fun event member => free event (owned event member)) ran⟩
    intro event member
    obtain ⟨inner, among, rfl⟩ := List.mem_map.mp member
    exact owned inner among
  -- The announcement may have come already.
  have told : ∃ middle, Reaches system.attend (Attendance.Own own) s middle ∧ middle.announced = true := by
    cases announced : s.announced with
    | true => exact ⟨_, done_, announced⟩
    | false => exact ⟨_, done_.tail .announce trivial (by rw [attend, if_pos ⟨ready, announced⟩]), rfl⟩
  obtain ⟨middle, reached, announced⟩ := told
  have kept : system.Attended invariant middle := by
    obtain ⟨_, _, went⟩ := reached
    exact attended.run lawful went
  obtain ⟨last, returned, finished⟩ := kept.all_return lawful announced
  have whole := reached.trans (returned.mono fun _ => Attendance.Goes.own)
  refine ⟨last, whole, ?_, fun id caller calls pending => ?_⟩
  · obtain ⟨_, _, went⟩ := returned
    obtain ⟨value, answered⟩ := lawful.answered kept.base (kept.announced announced)
    exact (kept.returns lawful announced answered went).1
  · obtain ⟨other, found, goes | ⟨value, rfl⟩⟩ := kept_calls whole calls pending
    · rw [finished other (List.mem_of_getElem? found)] at goes
      cases goes
    · exact ⟨value, found⟩

end Answering

end Webtrans.Data
