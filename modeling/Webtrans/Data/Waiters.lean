import Mathlib.Data.List.Basic

namespace Webtrans.Data

/-! Tasks that have returned from a poll and wait to be woken.  A wake for a
task that does not wait is lost. -/

structure Waiters (τ : Type u) where
  suspended : List τ := []
  woken : List τ := []
deriving DecidableEq

namespace Waiters

variable {τ : Type u} [DecidableEq τ] {waiters : Waiters τ} {task other : τ} {waker : Option τ}

/-- Wake the task of a waker that some source of events has kept. -/
def wake (waiters : Waiters τ) : Option τ → Waiters τ
  | none => waiters
  | some task =>
      if task ∈ waiters.suspended then { waiters with woken := task :: waiters.woken } else waiters

def leave (waiters : Waiters τ) (task : τ) : Waiters τ where
  suspended := waiters.suspended.filter (· ≠ task)
  woken := waiters.woken.filter (· ≠ task)

/-- The task has been polled and waits for the next wake. -/
def park (waiters : Waiters τ) (task : τ) : Waiters τ :=
  { waiters.leave task with suspended := task :: (waiters.leave task).suspended }

@[simp] theorem suspended_wake (waiters : Waiters τ) (waker : Option τ) :
    (waiters.wake waker).suspended = waiters.suspended := by
  cases waker with
  | none => rfl
  | some task =>
      rw [wake]
      split <;> rfl

theorem woken_wake (woken : task ∈ waiters.woken) : task ∈ (waiters.wake waker).woken := by
  cases waker with
  | none => exact woken
  | some other =>
      rw [wake]
      split
      · exact List.mem_cons_of_mem _ woken
      · exact woken

theorem wake_woken (suspended : task ∈ waiters.suspended) : task ∈ (waiters.wake (some task)).woken := by
  rw [wake, if_pos suspended]
  exact List.mem_cons_self

theorem wake_lost (gone : ∀ task ∈ waiters.suspended, waker ≠ some task) : waiters.wake waker = waiters := by
  cases waker with
  | none => rfl
  | some task =>
      rw [wake, if_neg]
      exact fun suspended => gone task suspended rfl

theorem mem_suspended_leave :
    other ∈ (waiters.leave task).suspended ↔ other ∈ waiters.suspended ∧ other ≠ task := by
  rw [leave, List.mem_filter, decide_eq_true_iff]

theorem mem_woken_leave : other ∈ (waiters.leave task).woken ↔ other ∈ waiters.woken ∧ other ≠ task := by
  rw [leave, List.mem_filter, decide_eq_true_iff]

theorem park_suspended : task ∈ (waiters.park task).suspended :=
  List.mem_cons_self

end Waiters

end Webtrans.Data
