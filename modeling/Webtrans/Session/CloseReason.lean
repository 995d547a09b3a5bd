import Webtrans.Data.Transition
import Webtrans.Session.Machine

namespace Webtrans.Session

open Webtrans.Data Webtrans.Proto

/-! What `closed` and `close_reason` tell the application. -/

variable {backend : Backend}

/-- Behind a CLOSE capsule Quion's task holds its code and reason, first in the
result and then in the store. -/
def Holds (code : UInt32) (reason : String) (s : State backend) : Prop :=
  s.task = .returned (.ok (some (code, reason))) ∨
    s.closeError = some (.webTransportError (.closed code reason)) ∧
      s.task.receiving = false ∧ ∀ result, s.task ≠ .returned result

theorem holds_step {code : UInt32} {reason : String} {s t : State .quion} {event : Event .quion}
    (holds : Holds code reason s) (stepped : step s event = some t) : Holds code reason t := by
  rw [Holds] at *
  cases moves_of_step stepped with
  | stored _ returned => simp_all [Task.receiving]
  | checked checks =>
      rcases checks with ⟨isQuinn, _⟩ | recorded | ⟨error, returned, _⟩
      · cases isQuinn
      · have stored := (holds.resolve_left (by simp [recorded])).1
        refine .inr ⟨stored, ?_⟩
        cases isOpen : s.connReason <;>
          simp [State.checkOpen, State.afterResult, Task.receiving, isOpen]
      · simp_all
  | graceful ends =>
      rcases ends with returned | ⟨error, returned, _⟩ <;> simp_all
  | handled handled =>
      cases s.connReason <;> simp_all [Task.receiving]
  | _ => simp_all [State.afterResult, Task.receiving]

/-- The reader has met a CLOSE capsule while the connection was open. -/
def Receives (s : State backend) (code : UInt32) (reason : String) : Prop :=
  s.task = .select ∧ s.connReason = none ∧ ∃ pending recv,
    readCapsuleFrame s.recv s.pending = .done (.closeWebTransportSession code reason, pending) recv

theorem received_of_receives {s t : State backend} {code : UInt32} {reason : String}
    (receives : Receives s code reason) (stepped : step s .readCapsule = some t) :
    t.task = .returned (.ok (some (code, reason))) ∧ t.connReason = none := by
  obtain ⟨selecting, isOpen, pending, recv, read⟩ := receives
  simp only [step, if_pos selecting, State.readCapsule, read, Option.some.injEq] at stepped
  subst stepped
  exact ⟨rfl, isOpen⟩

/-- The event is a `conn.close`. -/
def Closes (s : State backend) (event : Event backend) : Prop :=
  (∃ caller, event = .fallback caller) ∨
    event = .advance ∧ ((∃ code reason, s.task = .closing code reason) ∨ s.task = .closingEnded)

/-- Behind a CLOSE capsule Quinn's task closes the connection unless it finds it
closed. -/
def Behind (code : UInt32) (reason : String) (s : State .quinn) : Prop :=
  s.task = .returned (.ok (some (code, reason))) ∨ (∃ code reason, s.task = .closing code reason) ∨
    s.task = .done ∧ s.connReason ≠ none

theorem behind_step {code : UInt32} {reason : String} {s t : State .quinn} {event : Event .quinn}
    (behind : Behind code reason s) (stepped : step s event = some t) : Behind code reason t := by
  rw [Behind] at *
  cases moves_of_step stepped with
  | checked checks => cases isOpen : s.connReason <;> simp [State.checkOpen, State.afterResult, isOpen]
  | graceful ends => rcases ends with returned | ⟨_, returned, _⟩ <;> simp_all
  | closing _ => simp [State.afterResult]
  | fallback _ => simpa using behind.imp_right (Or.imp_right And.left)
  | lost _ => exact behind.imp_right (Or.imp_right fun kept => ⟨kept.1, by simp⟩)
  | _ => simp_all

theorem locallyClosed_stays {s t : State .quinn} {event : Event .quinn}
    (closed : s.connReason = some .locallyClosed) (stepped : step s event = some t) :
    t.connReason = some .locallyClosed := by
  cases moves_of_step stepped with
  | lost isOpen => simp [closed] at isOpen
  | fallback _ | closing _ | closingEnded _ => simp [closed, ConnectionError.closedAgain]
  | _ => exact closed

/-- The reason of a closed connection changes on Quinn only by another close. -/
theorem connReason_step {s t : State .quinn} {event : Event .quinn} {error : ConnectionError .quinn}
    (closed : s.connReason = some error) (stepped : step s event = some t) :
    t.connReason = some error ∧ ¬ Closes s event ∨ t.connReason = some .locallyClosed ∧ Closes s event := by
  cases moves_of_step stepped with
  | lost isOpen => simp [closed] at isOpen
  | @fallback caller _ _ _ => exact .inr ⟨by simp [closed, ConnectionError.closedAgain], .inl ⟨caller, rfl⟩⟩
  | @closing code reason closing =>
      exact .inr ⟨by simp [closed, ConnectionError.closedAgain], .inr ⟨rfl, .inl ⟨code, reason, closing⟩⟩⟩
  | closingEnded closing =>
    exact .inr ⟨by simp [closed, ConnectionError.closedAgain], .inr ⟨rfl, .inr closing⟩⟩
  | quiet _ _ _ _ quiet =>
      refine .inl ⟨closed, ?_⟩
      rintro (⟨_, rfl⟩ | ⟨rfl, _⟩) <;> cases quiet
  | checked checks =>
      refine .inl ⟨closed, ?_⟩
      rcases checks with ⟨_, other⟩ | other | ⟨_, other, _⟩ <;> simp [Closes, other]
  | graceful ends =>
      refine .inl ⟨closed, ?_⟩
      rcases ends with other | ⟨_, other, _⟩ <;> simp [Closes, other]
  | stored _ other | handled other | settled other => exact .inl ⟨closed, by simp [Closes, other]⟩
  | _ => exact .inl ⟨closed, by simp [Closes]⟩

/-- A task that is about to close the connection does so next. -/
theorem closing_step {s t : State .quinn} {event : Event .quinn} {code : UInt32} {reason : String}
    (closing : s.task = .closing code reason) (stepped : step s event = some t) :
    t.task = .closing code reason ∨ Closes s event := by
  cases moves_of_step stepped with
  | closing _ => exact .inr (.inr ⟨rfl, .inl ⟨code, reason, closing⟩⟩)
  | fallback _ => exact .inl (by simpa using closing)
  | quiet | refused _ | observed _ | lost _ => exact .inl closing
  | checked checks => rcases checks with ⟨_, other⟩ | other | ⟨_, other, _⟩ <;> simp [closing] at other
  | graceful ends => rcases ends with other | ⟨_, other, _⟩ <;> simp [closing] at other
  | received other | readerEnded other | taken other | handlesGone other | written other | closeDone other
  | stored _ other | handled other | closingEnded other | settled other => simp [closing] at other

theorem closes_step {s t : State .quinn} {event : Event .quinn} (closed : s.connReason ≠ none)
    (closes : Closes s event) (stepped : step s event = some t) : t.connReason = some .locallyClosed := by
  obtain ⟨error, reason⟩ := Option.ne_none_iff_exists'.mp closed
  rcases connReason_step reason stepped with ⟨_, other⟩ | ⟨own, _⟩
  · exact absurd closes other
  · exact own

/-- The connection was closed for this reason, and perhaps again. -/
def First (error : ConnectionError .quinn) (s : State .quinn) : Prop :=
  s.connReason = some error ∨ s.connReason = some .locallyClosed

theorem first_step {error : ConnectionError .quinn} {s t : State .quinn} {event : Event .quinn} (first : First error s)
    (stepped : step s event = some t) : First error t := by
  rcases first with same | closed
  · exact (connReason_step same stepped).imp And.left And.left
  · exact .inr (locallyClosed_stays closed stepped)

/-- The closed connection is closed once more before the task is done. -/
def Recloses (s : State .quinn) : Prop :=
  (∃ code reason, s.task = .closing code reason) ∧ s.connReason ≠ none ∨ s.connReason = some .locallyClosed

theorem recloses_step {s t : State .quinn} {event : Event .quinn} (recloses : Recloses s)
    (stepped : step s event = some t) : Recloses t := by
  rcases recloses with ⟨⟨code, reason, closing⟩, closed⟩ | own
  · rcases closing_step closing stepped with still | closes
    · exact .inl ⟨⟨code, reason, still⟩, closed_stays closed stepped⟩
    · exact .inr (closes_step closed closes stepped)
  · exact .inr (locallyClosed_stays own stepped)

/-- The task finds the connection closed, or has found it so. -/
def Finds (code : UInt32) (reason : String) (error : ConnectionError .quinn) (s : State .quinn) : Prop :=
  (s.task = .returned (.ok (some (code, reason))) ∨ s.task = .done) ∧ s.connReason = some error

theorem finds_step {code : UInt32} {reason : String} {error : ConnectionError .quinn} {s t : State .quinn}
    {event : Event .quinn} (finds : Finds code reason error s) (stepped : step s event = some t)
    (unclosed : ∀ caller, event ≠ .fallback caller) : Finds code reason error t := by
  obtain ⟨task, closed⟩ := finds
  have noClose : ¬ Closes s event := by
    rintro (⟨caller, same⟩ | ⟨_, ⟨_, _, closing⟩ | closing⟩)
    · exact unclosed caller same
    · rcases task with other | other <;> cases closing.symm.trans other
    · rcases task with other | other <;> cases closing.symm.trans other
  refine ⟨?_, (connReason_step closed stepped).elim And.left fun own => absurd own.2 noClose⟩
  cases moves_of_step stepped with
  | checked _ => simp [State.checkOpen, closed, State.afterResult]
  | graceful _ => exact .inr rfl
  | fallback _ => exact absurd rfl (unclosed _)
  | _ => simp_all

section Foreign

variable {state last : State .quinn} {events : List (Event .quinn)} {error : ConnectionError .quinn}

/-- A connection that tells at last of another close was not closed here. -/
theorem not_locallyClosed (told : last.connReason = some error) (foreign : error ≠ .locallyClosed)
    (ran : run step state events = some last) : state.connReason ≠ some .locallyClosed := by
  intro closed
  have kept : last.connReason = some .locallyClosed := run_invariant locallyClosed_stays closed ran
  exact foreign (Option.some.inj (told.symm.trans kept))

theorem unclosed_of_told (told : last.connReason = some error) (foreign : error ≠ .locallyClosed)
    (closed : state.connReason ≠ none) (ran : run step state events = some last) :
    ∀ caller, .fallback caller ∉ events := by
  intro caller member
  obtain ⟨front, back, rfl⟩ := List.append_of_mem member
  obtain ⟨between, reached, went⟩ := run_append_eq_some ran
  obtain ⟨next, stepped, later⟩ := run_cons_eq_some went
  have still : between.connReason ≠ none := run_invariant closed_stays closed reached
  exact not_locallyClosed told foreign later (closes_step still (.inl ⟨caller, rfl⟩) stepped)

theorem not_closing_of_told (told : last.connReason = some error) (foreign : error ≠ .locallyClosed)
    (closed : state.connReason ≠ none) (ran : run step state events = some last)
    (finished : last.task = .done) : ¬ ∃ code reason, state.task = .closing code reason := by
  intro closing
  have recloses : Recloses last := run_invariant recloses_step (.inl ⟨closing, closed⟩) ran
  rcases recloses with ⟨⟨_, _, waiting⟩, _⟩ | own
  · cases finished.symm.trans waiting
  · exact foreign (Option.some.inj (told.symm.trans own))

end Foreign

/-- What the closed connection tells behind the end of Quinn's task is the
peer's close exactly when it came before the task looked and stayed. -/
theorem peerClosed_iff {t last : State .quinn} {code : UInt32} {reason : String} {events : List (Event .quinn)}
    (returned : t.task = .returned (.ok (some (code, reason)))) (isOpen : t.connReason = none)
    (ran : run step t events = some last) (finished : last.task = .done) (errorCode : VarInt) (text : List UInt8) :
    last.connReason = some (.applicationClosed errorCode text) ↔ ∃ front back between,
      events = front ++ .lost (.applicationClosed errorCode text) :: back ∧ run step t front = some between ∧
      between.connReason = none ∧ between.task = .returned (.ok (some (code, reason))) ∧
      ∀ caller, .fallback caller ∉ back := by
  constructor
  · intro told
    have foreign : (.applicationClosed errorCode text : ConnectionError .quinn) ≠ .locallyClosed := nofun
    obtain ⟨front, event, back, between, next, rfl, reached, before, stepped, set, went⟩ :=
      @run_begins _ _ step (fun s => s.connReason ≠ none) t last events (not_not_intro isOpen) ran (by simp [told])
    have isOpen : between.connReason = none := not_not.mp before
    have behind : Behind code reason between := run_invariant behind_step (.inl returned) reached
    cases moves_of_step stepped with
    | @lost error _ =>
        have first : First error last := run_invariant first_step (.inl rfl) went
        have same : error = .applicationClosed errorCode text := by
          rcases first with kept | closed
          · exact Option.some.inj (kept.symm.trans told)
          · cases told.symm.trans closed
        subst same
        have notClosing := not_closing_of_told told foreign set went finished
        refine ⟨front, back, between, rfl, reached, isOpen, ?_, unclosed_of_told told foreign set went⟩
        rcases behind with returned | closing | ⟨_, closed⟩
        · exact returned
        · exact absurd closing notClosing
        · exact absurd isOpen closed
    | fallback _ | closing _ | closingEnded _ =>
        exact absurd (by simp [isOpen]) (not_locallyClosed told foreign went)
    | _ => exact absurd isOpen set
  · rintro ⟨front, back, between, rfl, reached, isOpen, returned, unclosed⟩
    obtain ⟨middle, before, goes⟩ := run_append_eq_some ran
    cases reached.symm.trans before
    obtain ⟨next, stepped, went⟩ := run_cons_eq_some goes
    rw [step, isOpen] at stepped
    cases stepped
    have next : Finds code reason (.applicationClosed errorCode text)
        { between with connReason := some (.applicationClosed errorCode text) } := ⟨.inl returned, rfl⟩
    have others : ∀ event ∈ back, ∀ caller, event ≠ .fallback caller :=
      fun event member caller same => unclosed caller (same ▸ member)
    have finds : Finds code reason (.applicationClosed errorCode text) last :=
      @run_following _ _ step _ (fun event => ∀ caller, event ≠ .fallback caller) finds_step _ _ _ next others went
    exact finds.2

/-- The peer's close code and reason reach the application.  From the step
that reads the CLOSE capsule to any state behind the end of the task, `closed`
and `close_reason` answer with the code and reason of the capsule exactly on
Quion, or when the peer also closes the connection with the same code and
reason before the task looks whether it is open, and no late call of `close`
closes it again. -/
theorem closeReason_received_iff {s t last : State backend} {code : UInt32} {reason : String}
    {events : List (Event backend)} (receives : Receives s code reason)
    (read : step s .readCapsule = some t) (ran : run step t events = some last)
    (finished : last.task = .done) :
    (∃ error, last.closeReason = some error ∧ error.sessionError = some (code, reason)) ↔
      backend = .quion ∨ ∃ front errorCode text back between,
        events = front ++ .lost (.applicationClosed errorCode text) :: back ∧
        run step t front = some between ∧ between.connReason = none ∧
        between.task = .returned (.ok (some (code, reason))) ∧ (∀ caller, .fallback caller ∉ back) ∧
        errorFromHttp3 errorCode.intoInner = some code ∧ backend.reasonText text = reason := by
  obtain ⟨returned, isOpen⟩ := received_of_receives receives read
  cases backend with
  | quion =>
      have holds : Holds code reason last := run_invariant holds_step (.inl returned) ran
      have stored : last.closeError = some (.webTransportError (.closed code reason)) := by
        rcases holds with same | ⟨stored, _⟩
        · rw [finished] at same
          cases same
        · exact stored
      simp [State.closeReason, stored, SessionError.sessionError]
  | quinn =>
      simp only [State.closeReason, Option.map_eq_some_iff]
      constructor
      · intro told
        obtain ⟨_, ⟨error, found, rfl⟩, same⟩ := told
        obtain ⟨errorCode, text, rfl, mapped, shown⟩ :=
          (SessionError.sessionError_fromConnectionError error code reason).mp same
        obtain ⟨front, back, between, split, reached, unset, before, unclosed⟩ :=
          (peerClosed_iff returned isOpen ran finished errorCode text).mp found
        exact .inr ⟨front, errorCode, text, back, between, split, reached, unset, before, unclosed, mapped, shown⟩
      · intro known
        obtain isQuion |
            ⟨front, errorCode, text, back, between, split, reached, unset, before, unclosed, mapped, shown⟩ :=
          known
        · cases isQuion
        · have found := (peerClosed_iff returned isOpen ran finished errorCode text).mpr
            ⟨front, back, between, split, reached, unset, before, unclosed⟩
          exact ⟨_, ⟨_, found, rfl⟩, (SessionError.sessionError_fromConnectionError _ code reason).mpr
            ⟨errorCode, text, rfl, mapped, shown⟩⟩

/-- On Quion the peer's code 42 and reason are what `close_reason` answers. -/
theorem closeReason_received_quion :
    ∃ last : State .quion,
      run step { recv := ⟨[[]], .waiting⟩, exchanged := some 42, task := .returned (.ok (some (42, "hi"))) }
        [.advance, .advance, .advance, .advance, .advance] = some last ∧
      ∃ error, last.closeReason = some error ∧ error.sessionError = some (42, "hi") := by
  let delivered : State .quion :=
    { recv := ⟨[[0x00, 0x09, 0x68, 0x43, 0x06, 0x00, 0x00, 0x00, 0x2a, 0x68, 0x69]], .waiting⟩ }
  have receives : Receives delivered 42 "hi" := ⟨rfl, rfl, [], ⟨[[]], .waiting⟩, by decide +kernel⟩
  have read : step delivered .readCapsule = some
      { recv := ⟨[[]], .waiting⟩, exchanged := some 42, task := .returned (.ok (some (42, "hi"))) } := by
    decide +kernel
  let last : State .quion :=
    { connReason := some .locallyClosed, ownClose := some (closeCode 42, asBytes "hi")
      recv := ⟨[[]], .waiting⟩, exchanged := some 42, task := .done
      closeError := some (.webTransportError (.closed 42 "hi")) }
  have ran : run step { recv := ⟨[[]], .waiting⟩, exchanged := some 42, task := .returned (.ok (some (42, "hi"))) }
      [.advance, .advance, .advance, .advance, .advance] = some last := by
    decide +kernel
  exact ⟨last, ran, (closeReason_received_iff receives read ran rfl).mpr (.inl rfl)⟩

/-- On Quinn the task closes the connection itself, and what `close_reason`
answers carries neither code nor reason. -/
theorem closeReason_received_quinn :
    ((run step (start .quinn)
      [.deliver [0x00, 0x09, 0x68, 0x43, 0x06, 0x00, 0x00, 0x00, 0x2a, 0x68, 0x69], .readCapsule,
        .advance, .advance]).map fun s => (s.exchanged, s.task, s.closeReason)) =
      some (some 42, .done, some (.connectionError .locallyClosed)) ∧
    SessionError.sessionError (.connectionError (.locallyClosed : ConnectionError .quinn)) = none := by
  decide +kernel

/-- A close of the peer behind the task's look at the connection comes too late. -/
example : ((run step (start .quinn)
      [.deliver [0x00, 0x09, 0x68, 0x43, 0x06, 0x00, 0x00, 0x00, 0x2a, 0x68, 0x69], .readCapsule,
        .advance, .lost (.applicationClosed (closeCode 42) (asBytes "hi")), .advance]).map State.closeReason) =
      some (some (.connectionError .locallyClosed)) := by
  decide +kernel

/-- Every result reported so far is the same, and is what is answered now. -/
structure Stable (s : State backend) : Prop where
  same : ∀ left ∈ s.reported, ∀ right ∈ s.reported, left = right
  kept : ∀ error ∈ s.reported, s.closeReason = some error

/-- Quion's task stores the code and reason of the capsule although another
reason of the closed connection has been reported. -/
def StoresOver (s : State backend) (event : Event backend) : Prop :=
  backend = .quion ∧ event = .advance ∧ ∃ code reason, s.task = .returned (.ok (some (code, reason))) ∧
    s.reported ≠ [] ∧
    s.connReason.map SessionError.fromConnectionError ≠ some (.webTransportError (.closed code reason))

/-- Quinn closes a connection again although another reason has been reported. -/
def ClosesOver (s : State backend) (event : Event backend) : Prop :=
  backend = .quinn ∧ Closes s event ∧ s.reported ≠ [] ∧ s.connReason ≠ some .locallyClosed

def Overwrites (s : State backend) (event : Event backend) : Prop :=
  StoresOver s event ∨ ClosesOver s event

def Unstored (s : State backend) : Prop :=
  s.task.receiving = true ∨ (∃ result, s.task = .returned result) → s.closeError = none

theorem Stable.of_kept {s : State backend} (kept : ∀ error ∈ s.reported, s.closeReason = some error) :
    Stable s where
  kept := kept
  same left leftSeen right rightSeen := by
    have both := (kept left leftSeen).symm.trans (kept right rightSeen)
    exact Option.some.inj both

theorem Stable.congr {s t : State backend} (stable : Stable s) (connection : t.connReason = s.connReason)
    (stored : t.closeError = s.closeError) (reported : t.reported = s.reported) : Stable t := by
  refine .of_kept fun error seen => ?_
  rw [State.closeReason_congr connection stored]
  rw [reported] at seen
  exact stable.kept error seen

theorem closeReason_of_open {s t : State backend} {error : SessionError backend} (isOpen : s.connReason = none)
    (answered : s.closeReason = some error) (kept : t.closeError = s.closeError) :
    t.closeReason = some error := by
  cases backend with
  | quinn => simp [State.closeReason, isOpen] at answered
  | quion => simp_all [State.closeReason]

theorem eq_locallyClosed {error : ConnectionError backend}
    (same : SessionError.fromConnectionError error = .connectionError .locallyClosed) : error = .locallyClosed := by
  cases error with
  | applicationClosed errorCode text =>
      cases mapped : errorFromHttp3 errorCode.intoInner <;> simp [SessionError.fromConnectionError, mapped] at same
  | locallyClosed => rfl
  | other cause => simp [SessionError.fromConnectionError] at same

/-- A close of the connection changes the answer only on Quinn, and only one
that was not its own already. -/
theorem stable_closeConnection {s : State backend} (stable : Stable s) (code : UInt32) (reason : List UInt8) :
    Stable (s.closeConnection code reason) ↔
      ¬ (backend = .quinn ∧ s.reported ≠ [] ∧ s.connReason ≠ some .locallyClosed) := by
  cases isOpen : s.connReason with
  | none =>
      rw [State.closeConnection_open isOpen]
      refine ⟨fun _ changes => ?_,
        fun _ => .of_kept fun error seen => closeReason_of_open isOpen (stable.kept error seen) rfl⟩
      obtain ⟨rfl, seen, _⟩ := changes
      obtain ⟨error, member⟩ := List.exists_mem_of_ne_nil _ seen
      have answered := stable.kept error member
      simp [State.closeReason, isOpen] at answered
  | some cause =>
      rw [State.closeConnection_closed isOpen]
      cases backend with
      | quion => exact ⟨fun _ changes => (by cases changes.1), fun _ => stable.congr isOpen.symm rfl rfl⟩
      | quinn =>
          constructor
          · rintro ⟨_, kept⟩ ⟨_, seen, different⟩
            obtain ⟨error, member⟩ := List.exists_mem_of_ne_nil _ seen
            have before := stable.kept error member
            have after : some (SessionError.fromConnectionError .locallyClosed) = some error := kept error member
            rw [State.closeReason, isOpen, Option.map_some, ← after, Option.some.injEq] at before
            exact different (congrArg some (eq_locallyClosed before))
          · intro never
            by_cases same : cause = .locallyClosed
            · subst same
              exact stable.congr isOpen.symm rfl rfl
            · refine .of_kept fun error seen => ?_
              exact absurd ⟨rfl, List.ne_nil_of_mem seen, fun equal => same (Option.some.inj equal)⟩ never

theorem unstored_step {s t : State backend} {event : Event backend} (unstored : Unstored s)
    (stepped : step s event = some t) : Unstored t := by
  rw [Unstored] at *
  cases moves_of_step stepped with
  | checked checks =>
      cases isOpen : s.connReason <;> cases backend <;>
        simp [State.checkOpen, isOpen, State.afterResult, Task.receiving]
  | graceful ends => cases backend <;> simp [State.afterResult, Task.receiving]
  | closing closing => cases backend <;> simp [State.afterResult, Task.receiving]
  | handled handled => cases s.connReason <;> simp [Task.receiving]
  | _ => simp_all [Task.receiving]

theorem stable_stored {s : State .quion} (stable : Stable s) (empty : s.closeError = none) {code : UInt32}
    {reason : String} (returned : s.task = .returned (.ok (some (code, reason)))) :
    Stable { s with
        closeError := some (.webTransportError (.closed code reason)), task := .recorded code reason } ↔
      ¬ StoresOver s .advance := by
  have answer : s.closeReason = s.connReason.map SessionError.fromConnectionError := by
    simp [State.closeReason, empty]
  constructor
  · rintro ⟨_, kept⟩ ⟨_, _, _, _, again, seen, different⟩
    rw [returned] at again
    cases again
    obtain ⟨error, member⟩ := List.exists_mem_of_ne_nil _ seen
    have before := stable.kept error member
    have after := kept error member
    have now : some (.webTransportError (.closed code reason)) = some error := after
    rw [answer] at before
    exact different (before.trans now.symm)
  · intro never
    refine .of_kept fun error seen => ?_
    have same : s.connReason.map SessionError.fromConnectionError =
        some (.webTransportError (.closed code reason)) := by
      by_contra different
      exact never ⟨rfl, rfl, code, reason, returned, List.ne_nil_of_mem seen, different⟩
    have before := stable.kept error seen
    rw [answer, same] at before
    simpa [State.closeReason] using before

theorem not_overwrites {s : State backend} {event : Event backend} (noStore : ¬ StoresOver s event)
    (noClose : ¬ Closes s event) : ¬ Overwrites s event := by
  rintro (stores | closes)
  · exact noStore stores
  · exact noClose closes.2.1

/-- Where a step closes the connection, the answer changes exactly where it
overwrites another reason. -/
theorem overwrites_iff {s : State backend} {event : Event backend} (noStore : ¬ StoresOver s event)
    (closes : Closes s event) :
    Overwrites s event ↔ backend = .quinn ∧ s.reported ≠ [] ∧ s.connReason ≠ some .locallyClosed := by
  constructor
  · rintro (stores | ⟨quinn, _, other⟩)
    · exact absurd stores noStore
    · exact ⟨quinn, other⟩
  · rintro ⟨quinn, other⟩
    exact .inr ⟨quinn, closes, other⟩

theorem stable_step {s t : State backend} {event : Event backend} (unstored : Unstored s)
    (stable : Stable s) (stepped : step s event = some t) : Stable t ↔ ¬ Overwrites s event := by
  have noStore (other : ∀ code reason, s.task ≠ .returned (.ok (some (code, reason)))) :
      ¬ StoresOver s .advance := by
    intro unset
    obtain ⟨_, _, code, reason, returned, _⟩ := unset
    exact other code reason returned
  cases moves_of_step stepped with
  | quiet handles queue recv pending quiet =>
      refine ⟨fun _ => ?_, fun _ => stable.congr rfl rfl rfl⟩
      cases event with
      | fallback _ | lost _ | advance => cases quiet
      | _ => exact not_overwrites (by simp [StoresOver]) (by simp [Closes])
  | fallback call =>
      rename_i caller code reason
      have answered : Stable { s with closers := s.closers.eraseIdx caller } := stable.congr rfl rfl rfl
      rw [overwrites_iff (by simp [StoresOver]) (.inl ⟨caller, rfl⟩)]
      exact stable_closeConnection answered code reason
  | observed seen =>
      rename_i answer
      refine ⟨fun _ => not_overwrites (by simp [StoresOver]) (by simp [Closes]),
        fun _ => .of_kept fun error member => ?_⟩
      have unchanged : State.closeReason { s with reported := s.reported ++ [answer] } = s.closeReason :=
        State.closeReason_congr rfl rfl
      rw [unchanged]
      rcases List.mem_append.mp member with before | now
      · exact stable.kept error before
      · rw [List.mem_singleton.mp now]
        exact seen
  | lost isOpen =>
      refine ⟨fun _ => not_overwrites (by simp [StoresOver]) (by simp [Closes]),
        fun _ => .of_kept fun error seen => ?_⟩
      exact closeReason_of_open isOpen (stable.kept error seen) rfl
  | stored quion returned =>
      subst quion
      rw [stable_stored stable (unstored (.inr ⟨_, returned⟩)) returned, Overwrites]
      have quionOnly : ¬ ClosesOver s .advance := fun changes => by cases changes.1
      simp only [quionOnly, or_false]
  | checked checks =>
      refine ⟨fun _ => ?_, fun _ => stable.congr rfl rfl rfl⟩
      rcases checks with ⟨quinn, returned⟩ | recorded | ⟨error, failed, _⟩
      · refine not_overwrites (fun unset => ?_) (by simp [Closes, returned])
        cases quinn.symm.trans unset.1
      · exact not_overwrites (noStore (by simp [recorded])) (by simp [Closes, recorded])
      · exact not_overwrites (noStore (by simp [failed])) (by simp [Closes, failed])
  | graceful ends =>
      refine ⟨fun _ => ?_, fun _ => stable.congr rfl rfl rfl⟩
      rcases ends with returned | ⟨error, returned, _⟩
      · exact not_overwrites (noStore (by simp [returned])) (by simp [Closes, returned])
      · exact not_overwrites (noStore (by simp [returned])) (by simp [Closes, returned])
  | closing closing =>
      rename_i code reason
      rw [overwrites_iff (noStore (by simp [closing])) (.inr ⟨rfl, .inl ⟨code, reason, closing⟩⟩),
        ← stable_closeConnection stable code (asBytes reason)]
      exact ⟨fun after => after.congr rfl rfl rfl, fun after => after.congr rfl rfl rfl⟩
  | handled handled =>
      exact ⟨fun _ => not_overwrites (noStore (by simp [handled])) (by simp [Closes, handled]),
        fun _ => stable.congr rfl rfl rfl⟩
  | closingEnded closing =>
      rw [overwrites_iff (noStore (by simp [closing])) (.inr ⟨rfl, .inr closing⟩),
        ← stable_closeConnection stable 0 (asBytes "CONNECT stream ended")]
      exact ⟨fun after => after.congr rfl rfl rfl, fun after => after.congr rfl rfl rfl⟩
  | settled settling =>
      refine ⟨fun _ => not_overwrites (noStore (by simp [settling])) (by simp [Closes, settling]),
        fun _ => .of_kept fun error seen => ?_⟩
      -- What is stored here is what has been answered all along.
      have before := stable.kept error seen
      cases backend with
      | quinn => exact before
      | quion => cases stored : s.closeError <;> simp_all [State.closeReason]
  | _ =>
      exact ⟨fun _ => not_overwrites (by simp [StoresOver]) (by simp [Closes]), fun _ => stable.congr rfl rfl rfl⟩

/-- All observers of one session see the same close reason.  Along every run
what has been reported is one reason and stays the answer, exactly when Quion's
task never stores a capsule's code and reason over a different reason that has
been reported, and Quinn never closes the connection over one. -/
theorem stable_iff {last : State backend} {events : List (Event backend)}
    (ran : run step (start backend) events = some last) :
    Always step Stable (start backend) events ↔
      EachStep step (fun s event => ¬ Overwrites s event) (start backend) events :=
  always_iff_eachStep unstored_step (fun unstored stable stepped => stable_step unstored stable stepped)
    (fun _ => rfl) (.of_kept fun error seen => by cases seen) ran

/-- Two observers of a timed out connection, before the task has handled a
capsule. -/
theorem stable_timedOut :
    Always step Stable (start .quion)
      [.deliver [0x00, 0x09, 0x68, 0x43, 0x06, 0x00, 0x00, 0x00, 0x2a, 0x68, 0x69], .readCapsule,
        .lost (.other "timed out"), .observe, .cloneHandle, .observe] := by
  have ran : (run step (start .quion)
      [.deliver [0x00, 0x09, 0x68, 0x43, 0x06, 0x00, 0x00, 0x00, 0x2a, 0x68, 0x69], .readCapsule,
        .lost (.other "timed out"), .observe, .cloneHandle, .observe]).isSome = true := by
    decide +kernel
  apply (stable_iff (Option.some_get ran).symm).mpr
  rintro front event back state split _ (⟨_, rfl, _⟩ | ⟨isQuinn, _⟩)
  case inr => cases isQuinn
  have member : Event.advance ∈ front ++ .advance :: back := by simp
  rw [← split] at member
  simp at member

/-- An idle timeout is reported between the reader's return and the store of
the capsule's code and reason; the next answer is another one. -/
theorem stable_overwritten :
    (run step (start .quion)
      [.deliver [0x00, 0x09, 0x68, 0x43, 0x06, 0x00, 0x00, 0x00, 0x2a, 0x68, 0x69], .readCapsule,
        .lost (.other "timed out"), .observe, .advance, .observe]).map State.reported =
      some [.connectionError (.other "timed out"), .webTransportError (.closed 42 "hi")] := by
  decide +kernel

end Webtrans.Session
