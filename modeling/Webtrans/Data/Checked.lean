import Mathlib.Algebra.GroupWithZero.Nat
import Mathlib.Data.Nat.Basic

namespace Webtrans.Data

/-! Integer arithmetic and indexing that end the thread where a result does not
fit, as a build with overflow checks has them.

A computation either panics or returns what the wrapping operations return.
`Ensures` is what it returns if it does, `Completes` that it does. -/

inductive Panic where
  | overflow
  | outOfRange
deriving DecidableEq, Repr

namespace Checked

variable {α β : Type}

def guarded (fits : Prop) [Decidable fits] (result : α) : Except Panic α :=
  if fits then .ok result else .error .overflow

def add (left right : UInt32) : Except Panic UInt32 :=
  guarded (left.toNat + right.toNat < 2 ^ 32) (left + right)

def sub (left right : UInt32) : Except Panic UInt32 :=
  guarded (right.toNat ≤ left.toNat) (left - right)

def mul (left right : UInt32) : Except Panic UInt32 :=
  guarded (left.toNat * right.toNat < 2 ^ 32) (left * right)

def sub16 (left right : UInt16) : Except Panic UInt16 :=
  guarded (right.toNat ≤ left.toNat) (left - right)

/-- A shift may lose bits, but not shift by the width of its operand. -/
def shl8 (value : UInt8) (amount : UInt32) : Except Panic UInt8 :=
  guarded (amount.toNat < 8) (value <<< amount.toUInt8)

def shr8 (value : UInt8) (amount : UInt32) : Except Panic UInt8 :=
  guarded (amount.toNat < 8) (value >>> amount.toUInt8)

def shl16 (value : UInt16) (amount : UInt32) : Except Panic UInt16 :=
  guarded (amount.toNat < 16) (value <<< amount.toUInt16)

def shr16 (value : UInt16) (amount : UInt32) : Except Panic UInt16 :=
  guarded (amount.toNat < 16) (value >>> amount.toUInt16)

def index (slice : List α) (position : Nat) : Except Panic α :=
  match slice[position]? with
  | none => .error .outOfRange
  | some element => .ok element

variable {checked : Except Panic α} {next : α → Except Panic β} {post : α → Prop} {postNext : β → Prop}

def Ensures (checked : Except Panic α) (post : α → Prop) : Prop :=
  ∀ found, checked = .ok found → post found

def Completes (checked : Except Panic α) : Prop :=
  ∃ found, checked = .ok found

theorem Ensures.ok {result : α} (holds : post result) : Ensures (.ok result) post := by
  intro found same
  cases same
  exact holds

theorem Ensures.always (holds : ∀ found, post found) : Ensures checked post :=
  fun found _ => holds found

theorem Ensures.bind (first : Ensures checked post) (rest : ∀ found, post found → Ensures (next found) postNext) :
    Ensures (checked >>= next) postNext := by
  intro result returned
  cases found : checked with
  | error panic =>
      rw [found] at returned
      cases returned
  | ok value =>
      rw [found] at returned
      exact rest value (first value found) result returned

theorem Ensures.guarded {fits : Prop} [Decidable fits] {result : α}
    (rest : fits → Ensures (next result) postNext) : Ensures (guarded fits result >>= next) postNext := by
  by_cases holds : fits
  · rw [Checked.guarded, if_pos holds]
    exact rest holds
  · rw [Checked.guarded, if_neg holds]
    intro found returned
    cases returned

theorem Ensures.wraps {fits : Prop} [Decidable fits] {result : α}
    (rest : Ensures (next result) postNext) : Ensures (Checked.guarded fits result >>= next) postNext :=
  .guarded fun _ => rest

theorem Ensures.index {slice : List α} {position : Nat}
    (rest : ∀ element, slice[position]? = some element → Ensures (next element) postNext) :
    Ensures (index slice position >>= next) postNext := by
  rw [Checked.index]
  cases found : slice[position]? with
  | none =>
      intro result returned
      cases returned
  | some element => exact rest element found

theorem Completes.ok (result : α) : Completes (.ok result : Except Panic α) :=
  ⟨result, rfl⟩

theorem Completes.bind (first : Completes checked) (ensured : Ensures checked post)
    (rest : ∀ found, post found → Completes (next found)) : Completes (checked >>= next) := by
  obtain ⟨value, found⟩ := first
  have completed := rest value (ensured value found)
  rw [found]
  exact completed

theorem Completes.guarded {fits : Prop} [Decidable fits] {result : α} (holds : fits)
    (rest : Completes (next result)) : Completes (guarded fits result >>= next) := by
  rw [Checked.guarded, if_pos holds]
  exact rest

theorem Completes.index {slice : List α} {position : Nat} (inside : position < slice.length)
    (rest : ∀ element, Completes (next element)) : Completes (index slice position >>= next) := by
  rw [Checked.index, List.getElem?_eq_getElem inside]
  exact rest _

end Checked

/-- Why an iterator yields no further item. -/
inductive Stop (ε : Type) where
  | ended
  | failed (error : ε)
  | panicked (panic : Panic)
deriving DecidableEq, Repr

/-- What a caller makes of the items that reach it; it is not there after a
panic. -/
def Stop.result {ε α : Type} (items : List α) : Stop ε → Option (Except ε (List α))
  | .ended => some (.ok items)
  | .failed error => some (.error error)
  | .panicked _ => none

section Drain

variable {σ ε α : Type} {next : σ → Except Panic (Except ε (Option (α × σ)))} {size : σ → Nat}

/-- The items of an iterator up to its end or its first error, each with the
state behind it. -/
def drain (next : σ → Except Panic (Except ε (Option (α × σ)))) (size : σ → Nat)
    (shrinks : ∀ {state x after}, next state = .ok (.ok (some (x, after))) → size after < size state)
    (state : σ) : List (α × σ) × Stop ε :=
  match _item : next state with
  | .error panic => ([], .panicked panic)
  | .ok (.error error) => ([], .failed error)
  | .ok (.ok none) => ([], .ended)
  | .ok (.ok (some (x, after))) =>
      let later := drain next size shrinks after
      ((x, after) :: later.1, later.2)
termination_by size state
decreasing_by exact shrinks _item

/-- The runs of an iterator: what holds of a run that stops at once, and of one
item in front of a run, holds of every run. -/
theorem drain_induction
    {shrinks : ∀ {state x after}, next state = .ok (.ok (some (x, after))) → size after < size state}
    {motive : σ → List (α × σ) → Stop ε → Prop}
    (panicked : ∀ state panic, next state = .error panic → motive state [] (.panicked panic))
    (failed : ∀ state error, next state = .ok (.error error) → motive state [] (.failed error))
    (ended : ∀ state, next state = .ok (.ok none) → motive state [] .ended)
    (item : ∀ state x after items stop, next state = .ok (.ok (some (x, after))) → motive after items stop →
      motive state ((x, after) :: items) stop) (state : σ) :
    motive state (drain next size shrinks state).1 (drain next size shrinks state).2 := by
  induction length : size state using Nat.strong_induction_on generalizing state with
  | h length ih =>
      subst length
      rw [drain]
      split
      next panic found => exact panicked state panic found
      next error found => exact failed state error found
      next found => exact ended state found
      next x after found => exact item state x after _ _ found (ih _ (shrinks found) after rfl)

end Drain

end Webtrans.Data
