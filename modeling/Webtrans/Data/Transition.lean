import Mathlib.Data.List.Basic
import Mathlib.Data.List.Induction

namespace Webtrans.Data

/-! Systems that take one labelled step at a time.

A step function returns `none` where its event cannot occur.  A run is a list
of events that all occur; what holds along a run is told by its prefixes. -/

variable {σ : Type u} {ε : Type v} {ρ : Type w}

def run (step : σ → ε → Option σ) : σ → List ε → Option σ
  | state, [] => some state
  | state, event :: events =>
      match step state event with
      | none => none
      | some next => run step next events

/-- The predicate holds in every state the run passes through. -/
def Always (step : σ → ε → Option σ) (holds : σ → Prop) (start : σ) (events : List ε) : Prop :=
  ∀ front back state, events = front ++ back → run step start front = some state → holds state

/-- Every step of the run meets the condition on its event and the state before. -/
def EachStep (step : σ → ε → Option σ) (condition : σ → ε → Prop) (start : σ)
    (events : List ε) : Prop :=
  ∀ front event back state, events = front ++ event :: back →
    run step start front = some state → condition state event

/-- The predicate holds in every state the run passes through, and stays so
whatever steps of this kind follow there. -/
def AlwaysOnward (step : σ → ε → Option σ) (follows : ε → Prop) (holds : σ → Prop) (start : σ)
    (events : List ε) : Prop :=
  ∀ front back, events = front ++ back → ∀ tail state, (∀ event ∈ tail, follows event) →
    run step start (front ++ tail) = some state → holds state

variable {step : σ → ε → Option σ}

theorem AlwaysOnward.always {follows : ε → Prop} {holds : σ → Prop} {start : σ} {events : List ε}
    (onward : AlwaysOnward step follows holds start events) : Always step holds start events := by
  intro front back state split ran
  refine onward front back split [] state (List.forall_mem_nil _) ?_
  rw [List.append_nil, ran]

theorem run_cons_some {start next : σ} {event : ε} {events : List ε}
    (stepped : step start event = some next) :
    run step start (event :: events) = run step next events := by
  rw [run, stepped]

theorem run_cons_eq_some {start last : σ} {event : ε} {events : List ε}
    (ran : run step start (event :: events) = some last) :
    ∃ next, step start event = some next ∧ run step next events = some last := by
  cases stepped : step start event with
  | none =>
      rw [run, stepped] at ran
      cases ran
  | some next => exact ⟨next, rfl, (run_cons_some stepped).symm.trans ran⟩

theorem run_append (start : σ) (front back : List ε) :
    run step start (front ++ back) = (run step start front).bind fun middle => run step middle back := by
  induction front generalizing start with
  | nil => rfl
  | cons event front ih =>
      rw [List.cons_append, run, run]
      cases step start event with
      | none => rfl
      | some next => exact ih next

theorem run_append_eq_some {start last : σ} {front back : List ε}
    (ran : run step start (front ++ back) = some last) :
    ∃ middle, run step start front = some middle ∧ run step middle back = some last := by
  rw [run_append] at ran
  exact Option.bind_eq_some_iff.mp ran

theorem run_invariant {invariant : σ → Prop}
    (preserved : ∀ {state event next}, invariant state → step state event = some next → invariant next)
    {start last : σ} {events : List ε} (initial : invariant start)
    (ran : run step start events = some last) : invariant last := by
  induction events generalizing start with
  | nil =>
      cases ran
      exact initial
  | cons event events ih =>
      obtain ⟨next, stepped, ran⟩ := run_cons_eq_some ran
      exact ih (preserved initial stepped) ran

theorem always_cons {holds : σ → Prop} {start next : σ} {event : ε} {events : List ε}
    (stepped : step start event = some next) :
    Always step holds start (event :: events) ↔ holds start ∧ Always step holds next events := by
  constructor
  · intro always
    refine ⟨always [] _ start rfl rfl, fun front back state split ran => ?_⟩
    refine always (event :: front) back state (by rw [split]; rfl) ?_
    rw [run_cons_some stepped, ran]
  · intro both front back state split ran
    obtain ⟨first, later⟩ := both
    cases front with
    | nil =>
        cases ran
        exact first
    | cons other front =>
        obtain ⟨rfl, rfl⟩ := List.cons.inj split
        rw [run_cons_some stepped] at ran
        exact later front back state rfl ran

theorem eachStep_cons {condition : σ → ε → Prop} {start next : σ} {event : ε} {events : List ε}
    (stepped : step start event = some next) :
    EachStep step condition start (event :: events) ↔
      condition start event ∧ EachStep step condition next events := by
  constructor
  · intro each
    refine ⟨each [] event events start rfl rfl, fun front other back state split ran => ?_⟩
    refine each (event :: front) other back state (by rw [split]; rfl) ?_
    rw [run_cons_some stepped, ran]
  · intro both front other back state split ran
    obtain ⟨first, later⟩ := both
    cases front with
    | nil =>
        cases ran
        obtain ⟨rfl, rfl⟩ := List.cons.inj split
        exact first
    | cons second front =>
        obtain ⟨rfl, rfl⟩ := List.cons.inj split
        rw [run_cons_some stepped] at ran
        exact later front other back state rfl ran

/-- Where a condition on the step decides whether the step keeps a property,
a run keeps the property throughout exactly when all its steps meet the
condition. -/
theorem always_iff_eachStep {invariant holds : σ → Prop} {condition : σ → ε → Prop}
    (preserved : ∀ {state event next}, invariant state → step state event = some next → invariant next)
    (decides : ∀ {state event next}, invariant state → holds state → step state event = some next →
      (holds next ↔ condition state event))
    {start last : σ} {events : List ε} (initial : invariant start) (holdsStart : holds start)
    (ran : run step start events = some last) :
    Always step holds start events ↔ EachStep step condition start events := by
  induction events generalizing start with
  | nil =>
      constructor
      · intro _ front event back _ split
        simp at split
      · rintro _ front back state split reached
        obtain ⟨rfl, rfl⟩ := List.nil_eq_append_iff.mp split
        cases reached
        exact holdsStart
  | cons event events ih =>
      obtain ⟨next, stepped, ran⟩ := run_cons_eq_some ran
      have decided := decides initial holdsStart stepped
      rw [always_cons stepped, eachStep_cons stepped]
      constructor
      · intro both
        obtain ⟨_, later⟩ := both
        have holdsNext : holds next := later [] events next rfl rfl
        exact ⟨decided.mp holdsNext, (ih (preserved initial stepped) holdsNext ran).mp later⟩
      · intro both
        obtain ⟨met, later⟩ := both
        have holdsNext := decided.mpr met
        exact ⟨holdsStart, (ih (preserved initial stepped) holdsNext ran).mpr later⟩

/-- What the steps of some kind keep is kept by a run of such steps. -/
theorem run_following {good : σ → Prop} {follows : ε → Prop}
    (kept : ∀ {state event next}, good state → step state event = some next → follows event → good next)
    {start last : σ} {events : List ε} (initial : good start) (following : ∀ event ∈ events, follows event)
    (ran : run step start events = some last) : good last := by
  induction events generalizing start with
  | nil =>
      cases ran
      exact initial
  | cons event events ih =>
      obtain ⟨next, stepped, ran⟩ := run_cons_eq_some ran
      obtain ⟨first, later⟩ := List.forall_mem_cons.mp following
      exact ih (kept initial stepped first) later ran

/-- What the steps of a run keep that all meet a condition. -/
theorem run_eachStep {good : σ → Prop} {condition : σ → ε → Prop}
    (kept : ∀ {state event next}, good state → condition state event →
      step state event = some next → good next)
    {start last : σ} {events : List ε} (initial : good start) (each : EachStep step condition start events)
    (ran : run step start events = some last) : good last := by
  induction events generalizing start with
  | nil =>
      cases ran
      exact initial
  | cons event events ih =>
      obtain ⟨next, stepped, ran⟩ := run_cons_eq_some ran
      obtain ⟨first, later⟩ := (eachStep_cons stepped).mp each
      exact ih (kept initial first stepped) later ran

/-- Steps of some kind lead from one state to the other. -/
def Reaches (step : σ → ε → Option σ) (follows : ε → Prop) (start last : σ) : Prop :=
  ∃ events, (∀ event ∈ events, follows event) ∧ run step start events = some last

section Reaches

variable {follows : ε → Prop} {start middle last : σ}

theorem Reaches.refl (start : σ) : Reaches step follows start start :=
  ⟨[], List.forall_mem_nil _, rfl⟩

theorem Reaches.tail (reached : Reaches step follows start middle) (event : ε) (follow : follows event)
    (stepped : step middle event = some last) : Reaches step follows start last := by
  obtain ⟨events, following, ran⟩ := reached
  refine ⟨events ++ [event], ?_, ?_⟩
  · intro other member
    rcases List.mem_append.mp member with before | added
    · exact following other before
    · rw [List.mem_singleton.mp added]
      exact follow
  · rw [run_append, ran, Option.bind_some, run_cons_some stepped, run]

theorem Reaches.trans (reached : Reaches step follows start middle) (goes : Reaches step follows middle last) :
    Reaches step follows start last := by
  obtain ⟨front, before, ran⟩ := reached
  obtain ⟨back, after, went⟩ := goes
  refine ⟨front ++ back, ?_, ?_⟩
  · intro event member
    rcases List.mem_append.mp member with first | later
    · exact before event first
    · exact after event later
  · rw [run_append, ran, Option.bind_some, went]

theorem Reaches.mono {allowed : ε → Prop} (reached : Reaches step follows start last)
    (wider : ∀ event, follows event → allowed event) : Reaches step allowed start last := by
  obtain ⟨events, following, ran⟩ := reached
  exact ⟨events, fun event member => wider event (following event member), ran⟩

theorem Reaches.invariant {invariant : σ → Prop} (reached : Reaches step follows start last)
    (preserved : ∀ {state event next}, invariant state → step state event = some next → invariant next)
    (initial : invariant start) : invariant last := by
  obtain ⟨_, _, ran⟩ := reached
  exact run_invariant preserved initial ran

end Reaches

/-- A condition on the steps keeps a run good, and its violation lets steps of
some kind reach a state without the property: a run meets the condition
throughout exactly when at none of its points such steps may reach one. -/
theorem eachStep_iff_alwaysOnward {good holds : σ → Prop} {condition : σ → ε → Prop} {follows : ε → Prop}
    (kept : ∀ {state event next}, good state → step state event = some next → condition state event →
      good next)
    (safe : ∀ {state}, good state → holds state)
    (harmless : ∀ {state event}, follows event → condition state event)
    (spoiled : ∀ {state event next}, good state → step state event = some next → ¬ condition state event →
      ∃ tail last, (∀ event ∈ tail, follows event) ∧ run step next tail = some last ∧ ¬ holds last)
    {start last : σ} {events : List ε} (initial : good start) (ran : run step start events = some last) :
    EachStep step condition start events ↔ AlwaysOnward step follows holds start events := by
  have onward : ∀ {tail : List ε} {state reached}, good state → (∀ event ∈ tail, follows event) →
      run step state tail = some reached → holds reached := by
    intro tail state reached now following reachedBy
    refine safe (run_following ?_ now following reachedBy)
    intro before event after good stepped follows
    exact kept good stepped (harmless follows)
  induction events generalizing start with
  | nil =>
      constructor
      · intro _ front back split tail reached following reachedBy
        obtain ⟨rfl, _⟩ := List.nil_eq_append_iff.mp split
        exact onward initial following reachedBy
      · intro _ front event back _ split
        simp at split
  | cons event events ih =>
      obtain ⟨next, stepped, ran⟩ := run_cons_eq_some ran
      rw [eachStep_cons stepped]
      constructor
      · intro both front back split tail reached following reachedBy
        obtain ⟨met, later⟩ := both
        cases front with
        | nil => exact onward initial following reachedBy
        | cons other front =>
            obtain ⟨rfl, rfl⟩ := List.cons.inj split
            rw [List.cons_append, run_cons_some stepped] at reachedBy
            exact (ih (kept initial stepped met) ran).mp later front back rfl tail reached following reachedBy
      · intro throughout
        have met : condition start event := by
          by_contra unmet
          obtain ⟨tail, reached, following, reachedBy, lacks⟩ := spoiled initial stepped unmet
          refine lacks (throughout [event] events rfl tail reached following ?_)
          rw [List.singleton_append, run_cons_some stepped, reachedBy]
        refine ⟨met, (ih (kept initial stepped met) ran).mpr ?_⟩
        intro front back split tail reached following reachedBy
        refine throughout (event :: front) back (by rw [split]; rfl) tail reached following ?_
        rw [List.cons_append, run_cons_some stepped, reachedBy]

/-- Where every step of some kind uses up some of a measure, it bounds the runs
of such steps. -/
theorem run_measure {invariant : σ → Prop} {follows : ε → Prop} {measure : σ → Nat}
    (preserved : ∀ {state event next}, invariant state → step state event = some next → follows event →
      invariant next)
    (decreases : ∀ {state event next}, invariant state → step state event = some next → follows event →
      measure next < measure state)
    {start last : σ} {events : List ε} (initial : invariant start) (following : ∀ event ∈ events, follows event)
    (ran : run step start events = some last) : events.length + measure last ≤ measure start := by
  induction events generalizing start with
  | nil =>
      cases ran
      simp
  | cons event events ih =>
      obtain ⟨next, stepped, ran⟩ := run_cons_eq_some ran
      obtain ⟨follow, later⟩ := List.forall_mem_cons.mp following
      have rest := ih (preserved initial stepped follow) later ran
      have used := decreases initial stepped follow
      rw [List.length_cons]
      omega

/-- Where some step of this kind is possible until the goal is reached, such
steps reach it. -/
theorem reaches_of_progress {good goal : σ → Prop} {follows : ε → Prop} {measure : σ → Nat}
    (kept : ∀ {state event next}, good state → step state event = some next → follows event → good next)
    (decreases : ∀ {state event next}, good state → step state event = some next → follows event →
      measure next < measure state)
    (progress : ∀ {state}, good state → goal state ∨
      ∃ event next, follows event ∧ step state event = some next)
    {start : σ} (initial : good start) : ∃ last, Reaches step follows start last ∧ good last ∧ goal last := by
  induction size : measure start using Nat.strongRecOn generalizing start with
  | ind size ih =>
      subst size
      rcases progress initial with reached | ⟨event, next, follow, stepped⟩
      · exact ⟨start, .refl start, initial, reached⟩
      · obtain ⟨last, ⟨events, following, ran⟩, good_, reached⟩ :=
          ih _ (decreases initial stepped follow) (kept initial stepped follow) rfl
        refine ⟨last, ⟨event :: events, ?_, ?_⟩, good_, reached⟩
        · exact List.forall_mem_cons.mpr ⟨follow, following⟩
        · rw [run_cons_some stepped, ran]

/-- The first step of a run that the condition marks, with the value that it
marks it with. -/
def FirstStep (step : σ → ε → Option σ) (marks : σ → ε → ρ → Prop) (start : σ) (events : List ε)
    (value : ρ) : Prop :=
  ∃ front event back state, events = front ++ event :: back ∧ run step start front = some state ∧
    marks state event value ∧ EachStep step (fun state event => ∀ other, ¬ marks state event other) start front

section FirstStep

variable {marks : σ → ε → ρ → Prop} {start state : σ} {events : List ε} {event : ε} {value : ρ}

end FirstStep

/-- What holds at the end of a run began to hold at one of its steps, if it did
not hold before. -/
theorem run_begins {holds : σ → Prop} {start last : σ} {events : List ε} (unset : ¬ holds start)
    (ran : run step start events = some last) (found : holds last) :
    ∃ front event back state next, events = front ++ event :: back ∧ run step start front = some state ∧
      ¬ holds state ∧ step state event = some next ∧ holds next ∧ run step next back = some last := by
  induction events generalizing start with
  | nil =>
      cases ran
      exact absurd found unset
  | cons event events ih =>
      obtain ⟨next, stepped, ran⟩ := run_cons_eq_some ran
      by_cases after : holds next
      · exact ⟨[], event, events, start, next, rfl, rfl, unset, stepped, after, ran⟩
      · obtain ⟨front, first, back, state, result, rfl, reached, before, began, set, went⟩ := ih after ran
        refine ⟨event :: front, first, back, state, result, rfl, ?_, before, began, set, went⟩
        rw [run_cons_some stepped, reached]

end Webtrans.Data
