import Mathlib.Tactic.Ring
import Webtrans.Proto.Frame

namespace Webtrans.Proto

/-! WebTransport error codes in the HTTP/3 error space
(`webtrans-proto/src/error.rs`). -/

def errorFirst : Nat := 0x52e4a40fa8db
def errorLast : Nat := 0x52e5ac983162

def errorFromHttp3 (code : Nat) : Option UInt32 :=
  if code < errorFirst || code > errorLast then none
  else
    let code := code - errorFirst
    let code := code - code / 0x1f
    some (UInt32.ofNat code)

def errorToHttp3 (code : UInt32) : Nat :=
  errorFirst + code.toNat + code.toNat / 0x1e

/-- Every mapped code is a QUIC varint, so no conversion of one fails. -/
theorem errorToHttp3_lt (code : UInt32) : errorToHttp3 code < 2 ^ 62 := by
  have bound := code.toNat_lt
  rw [errorToHttp3, errorFirst]
  omega

theorem errorToHttp3_injective : Function.Injective errorToHttp3 := by
  intro left right same
  apply UInt32.toNat_inj.mp
  unfold errorToHttp3 at same
  omega

theorem errorFromHttp3_errorToHttp3 (code : UInt32) :
    errorFromHttp3 (errorToHttp3 code) = some code := by
  have bound := code.toNat_lt
  have inside : ¬ (errorToHttp3 code < errorFirst ∨ errorToHttp3 code > errorLast) := by
    rw [errorToHttp3, errorLast, errorFirst]
    omega
  have offset : errorToHttp3 code - errorFirst = code.toNat + code.toNat / 0x1e := by
    rw [errorToHttp3]
    omega
  have recovered : code.toNat + code.toNat / 0x1e - (code.toNat + code.toNat / 0x1e) / 0x1f =
      code.toNat := by
    omega
  simp only [errorFromHttp3, Bool.or_eq_true, decide_eq_true_eq, if_neg inside, offset, recovered,
    UInt32.ofNat_toNat]

theorem errorToHttp3_bounds (code : UInt32) :
    errorFirst ≤ errorToHttp3 code ∧ errorToHttp3 code ≤ errorLast := by
  have bound := code.toNat_lt
  rw [errorToHttp3, errorLast, errorFirst]
  omega

/-- The GREASE points of the error range lie 31 apart, the first one 30 behind
its start. -/
theorem isGreaseValue_offset (offset : Nat) :
    isGreaseValue (errorFirst + offset) = true ↔ offset % 0x1f = 0x1e := by
  rw [isGreaseValue_iff, greaseStart, greaseStep, errorFirst]
  omega

theorem errorToHttp3_notGrease (code : UInt32) : isGreaseValue (errorToHttp3 code) = false := by
  have split : errorToHttp3 code = errorFirst + (code.toNat + code.toNat / 0x1e) := by
    rw [errorToHttp3, Nat.add_assoc]
  have residue : (code.toNat + code.toNat / 0x1e) % 0x1f ≠ 0x1e := by omega
  rw [split, Bool.eq_false_iff]
  intro grease
  exact residue ((isGreaseValue_offset _).mp grease)

theorem errorToHttp3_lt_iff (left right : UInt32) :
    errorToHttp3 left < errorToHttp3 right ↔ left < right := by
  rw [UInt32.lt_iff_toNat_lt, errorToHttp3, errorToHttp3]
  omega

theorem errorToHttp3_survives (code : UInt32) :
    errorFirst ≤ errorToHttp3 code ∧ errorToHttp3 code ≤ errorLast ∧
    errorToHttp3 code < 2 ^ 62 ∧ isGreaseValue (errorToHttp3 code) = false ∧
    errorFromHttp3 (errorToHttp3 code) = some code ∧
    ∀ other, errorToHttp3 code < errorToHttp3 other ↔ code < other :=
  ⟨(errorToHttp3_bounds code).1, (errorToHttp3_bounds code).2, errorToHttp3_lt code,
    errorToHttp3_notGrease code, errorFromHttp3_errorToHttp3 code, errorToHttp3_lt_iff code⟩

theorem errorFromHttp3_outside {code : Nat} (outside : code < errorFirst ∨ code > errorLast) :
    errorFromHttp3 code = none := by
  rw [errorFromHttp3, if_pos (by simpa only [Bool.or_eq_true, decide_eq_true_eq] using outside)]

/-- The cast to 32 bits loses nothing on the whole range. -/
theorem errorOffset_lt {offset : Nat} (inside : errorFirst + offset ≤ errorLast) :
    offset - offset / 0x1f < 2 ^ 32 := by
  rw [errorFirst, errorLast] at inside
  omega

theorem errorFromHttp3_inside {offset : Nat} (inside : errorFirst + offset ≤ errorLast) :
    errorFromHttp3 (errorFirst + offset) = some (UInt32.ofNat (offset - offset / 0x1f)) := by
  have within : ¬ (errorFirst + offset < errorFirst ∨ errorFirst + offset > errorLast) := by omega
  simp only [errorFromHttp3, Bool.or_eq_true, decide_eq_true_eq, if_neg within,
    Nat.add_sub_cancel_left]

/-- A GREASE point is read as the code of the point behind it. -/
theorem errorToHttp3_ofNat {offset : Nat} (inside : errorFirst + offset ≤ errorLast) :
    errorToHttp3 (UInt32.ofNat (offset - offset / 0x1f)) =
      errorFirst + offset + if offset % 0x1f = 0x1e then 1 else 0 := by
  have fits := errorOffset_lt inside
  rw [errorToHttp3, UInt32.toNat_ofNat_of_lt' fits]
  split <;> omega

/-- `errorFromHttp3` inverts `errorToHttp3` at `code`: what it returns maps back
to `code`, it rejects a code that is no image, and its cast is exact. -/
def InvertsAt (code : Nat) : Prop :=
  (∀ mapped, errorFromHttp3 code = some mapped → errorToHttp3 mapped = code) ∧
  ((∀ mapped, errorToHttp3 mapped ≠ code) → errorFromHttp3 code = none) ∧
  (errorFirst ≤ code → code ≤ errorLast →
    (code - errorFirst) - (code - errorFirst) / 0x1f < 2 ^ 32)

/-- The reserved points of the range are the only codes on which the two maps
disagree. -/
theorem errorFromHttp3_inverts_iff (code : Nat) :
    InvertsAt code ↔
      ¬ (errorFirst ≤ code ∧ code ≤ errorLast ∧ isGreaseValue code = true) := by
  by_cases outside : code < errorFirst ∨ code > errorLast
  · have rejected := errorFromHttp3_outside outside
    refine iff_of_true ⟨?_, fun _ => rejected, by omega⟩ (by omega)
    intro mapped accepted
    rw [rejected] at accepted
    cases accepted
  · obtain ⟨offset, rfl⟩ := Nat.exists_eq_add_of_le (show errorFirst ≤ code by omega)
    have inside : errorFirst + offset ≤ errorLast := by omega
    have accepted := errorFromHttp3_inside inside
    have back := errorToHttp3_ofNat inside
    rw [isGreaseValue_offset]
    constructor
    · intro inverts
      have same := inverts.1 _ accepted
      intro reserved
      rw [back, if_pos reserved.2.2] at same
      omega
    · intro ordinary
      have residue : offset % 0x1f ≠ 0x1e :=
        fun reserved => ordinary ⟨by omega, inside, reserved⟩
      rw [if_neg residue, Nat.add_zero] at back
      refine ⟨?_, fun missing => absurd back (missing _), ?_⟩
      · intro mapped found
        rw [accepted, Option.some.injEq] at found
        rw [← found, back]
      · intro _ _
        rw [Nat.add_sub_cancel_left]
        exact errorOffset_lt inside

theorem errorFromHttp3_reserved :
    errorFromHttp3 (errorFirst + 30) = some 30 ∧ errorToHttp3 30 = errorFirst + 31 ∧
    ¬ InvertsAt (errorFirst + 30) := by
  refine ⟨by decide, by decide, ?_⟩
  intro inverts
  have same := inverts.1 30 (by decide)
  revert same
  decide

end Webtrans.Proto
