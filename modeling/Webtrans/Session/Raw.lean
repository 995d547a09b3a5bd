import Webtrans.Session.Closed

namespace Webtrans.Session.Raw

open Webtrans.Data Webtrans.Proto

/-! A raw Quion session (`Session::raw`): no CONNECT stream, but a monitor task
that waits for the end of the connection, and closes it when the last handle
is dropped. -/

/-- Where the monitor task stands. -/
inductive Monitor where
  | select
  /-- The channel of close commands has closed: a raw `close` never uses it. -/
  | dropped
  | awaiting
  | seen (error : ConnectionError .quion)
  | done
deriving DecidableEq

structure State where
  connReason : Option (ConnectionError .quion) := none
  /-- The close of this session that took effect, if any. -/
  ownClose : Option (VarInt × List UInt8) := none
  handles : Nat := 1
  closeError : Option (SessionError .quion) := none
  monitor : Monitor := .select
deriving DecidableEq

inductive Event where
  /-- `close` on a handle goes to the connection. -/
  | close (code : UInt32) (reason : List UInt8)
  | cloneHandle
  | dropHandle
  | lost (error : ConnectionError .quion)
  /-- `monitor.closed()` returns. -/
  | closed
  /-- `close_rx.recv()` returns nothing. -/
  | handlesGone
  /-- One step of the monitor behind these. -/
  | advance

namespace State

/-- `conn.close`: only the first close of a connection takes effect. -/
def closeConnection (s : State) (code : UInt32) (reason : List UInt8) : State :=
  match s.connReason with
  | some _ => s
  | none => { s with connReason := some .locallyClosed, ownClose := some (VarInt.fromU32 code, reason) }

def closeReason (s : State) : Option (SessionError .quion) :=
  s.closeError <|> s.connReason.map SessionError.fromConnectionError

end State

def step (s : State) : Event → Option State
  | .close code reason => if s.handles = 0 then none else some (s.closeConnection code reason)
  | .cloneHandle => if s.handles = 0 then none else some { s with handles := s.handles + 1 }
  | .dropHandle => if s.handles = 0 then none else some { s with handles := s.handles - 1 }
  | .lost error =>
      match s.connReason with
      | none => some { s with connReason := some error }
      | some _ => none
  | .closed =>
      match s.monitor, s.connReason with
      | .select, some error | .awaiting, some error => some { s with monitor := .seen error }
      | _, _ => none
  | .handlesGone =>
      if s.monitor = .select ∧ s.handles = 0 then some { s with monitor := .dropped } else none
  | .advance =>
      match s.monitor with
      | .dropped => some { s.closeConnection 0 (asBytes "last session handle dropped") with monitor := .awaiting }
      | .seen error => some { s with closeError := some (.fromConnectionError error), monitor := .done }
      | _ => none

def start : State := {}

/-- What a step does. -/
inductive Moves (s : State) : State → Prop where
  | handles (handles : Nat) : Moves s { s with handles }
  | closes (code : UInt32) (reason : List UInt8) : Moves s (s.closeConnection code reason)
  | lost {error : ConnectionError .quion} (isOpen : s.connReason = none) : Moves s { s with connReason := some error }
  | closed {error : ConnectionError .quion} (isClosed : s.connReason = some error)
      (waits : s.monitor = .select ∨ s.monitor = .awaiting) : Moves s { s with monitor := .seen error }
  | handlesGone (selects : s.monitor = .select) : Moves s { s with monitor := .dropped }
  | drops (dropped : s.monitor = .dropped) :
      Moves s { s.closeConnection 0 (asBytes "last session handle dropped") with monitor := .awaiting }
  | stores {error : ConnectionError .quion} (seen : s.monitor = .seen error) :
      Moves s { s with closeError := some (.fromConnectionError error), monitor := .done }

variable {s t : State} {event : Event}

theorem moves_of_step (stepped : step s event = some t) : Moves s t := by
  cases event with
  | close code reason =>
      rw [step] at stepped
      split at stepped <;> cases stepped
      exact .closes code reason
  | cloneHandle =>
      rw [step] at stepped
      split at stepped <;> cases stepped
      exact .handles _
  | dropHandle =>
      rw [step] at stepped
      split at stepped <;> cases stepped
      exact .handles _
  | lost error =>
      rw [step] at stepped
      split at stepped <;> cases stepped
      next isOpen => exact .lost isOpen
  | closed =>
      rw [step] at stepped
      split at stepped <;> cases stepped
      next selects isClosed => exact .closed isClosed (.inl selects)
      next awaits isClosed => exact .closed isClosed (.inr awaits)
  | handlesGone =>
      rw [step] at stepped
      split at stepped <;> cases stepped
      next gone => exact .handlesGone gone.1
  | advance =>
      rw [step] at stepped
      split at stepped <;> cases stepped
      next dropped => exact .drops dropped
      next error seen => exact .stores seen

theorem connReason_closeConnection (s : State) (code : UInt32) (reason : List UInt8) :
    (s.closeConnection code reason).connReason = some (s.connReason.getD .locallyClosed) := by
  cases isOpen : s.connReason <;> simp [State.closeConnection, isOpen]

theorem rest_closeConnection (s : State) (code : UInt32) (reason : List UInt8) :
    (s.closeConnection code reason).closeError = s.closeError ∧
      (s.closeConnection code reason).monitor = s.monitor ∧
      (s.closeConnection code reason).handles = s.handles := by
  rw [State.closeConnection]
  split <;> exact ⟨rfl, rfl, rfl⟩

/-- The connection has one close reason, and the monitor no other. -/
structure Told (s : State) : Prop where
  seen : ∀ {error}, s.monitor = .seen error → s.connReason = some error
  awaits : s.monitor = .awaiting → s.connReason ≠ none
  stored : ∀ {error}, s.closeError = some error → s.connReason.map SessionError.fromConnectionError = some error
  finished : s.monitor = .done → s.closeError ≠ none

theorem Told.closeConnection (told : Told s) (code : UInt32) (reason : List UInt8) :
    Told (s.closeConnection code reason) := by
  obtain ⟨stored, monitor, _⟩ := rest_closeConnection s code reason
  have reasons := connReason_closeConnection s code reason
  constructor
  · intro error seen
    rw [reasons, told.seen (monitor.symm.trans seen), Option.getD_some]
  · intro _ isOpen
    rw [reasons] at isOpen
    cases isOpen
  · intro error kept
    have before := told.stored (stored.symm.trans kept)
    cases closed : s.connReason with
    | none =>
        rw [closed] at before
        cases before
    | some reason =>
        rw [closed] at before
        rw [reasons, closed]
        exact before
  · intro ended
    rw [stored]
    exact told.finished (monitor.symm.trans ended)

theorem Told.step (told : Told s) (stepped : step s event = some t) : Told t := by
  cases moves_of_step stepped with
  | handles handles => exact ⟨told.seen, told.awaits, told.stored, told.finished⟩
  | closes code reason => exact told.closeConnection code reason
  | lost isOpen =>
      refine ⟨fun seen => ?_, fun _ isClosed => (by cases isClosed), fun kept => ?_, told.finished⟩
      · rw [told.seen seen] at isOpen
        cases isOpen
      · have before := told.stored kept
        rw [isOpen] at before
        cases before
  | closed isClosed waits =>
      refine ⟨fun seen => ?_, fun awaiting => (by cases awaiting), told.stored, fun ended => (by cases ended)⟩
      cases seen
      exact isClosed
  | handlesGone selects =>
      exact ⟨fun seen => (by cases seen), fun awaiting => (by cases awaiting), told.stored,
        fun ended => (by cases ended)⟩
  | drops dropped =>
      have closes := told.closeConnection 0 (asBytes "last session handle dropped")
      refine ⟨fun seen => (by cases seen), fun _ isOpen => ?_, closes.stored, fun ended => (by cases ended)⟩
      have reasons := (connReason_closeConnection s _ _).symm.trans isOpen
      cases reasons
  | stores seen =>
      refine ⟨fun watched => (by cases watched), fun awaiting => (by cases awaiting), fun kept => ?_,
        fun _ isOpen => (by cases isOpen)⟩
      cases kept
      rw [told.seen seen]
      rfl

/-- A call borrows its handle. -/
def closed : Answering State Event (SessionError .quion) where
  step := step
  answer s := s.closeError
  fallback s := s.connReason.map SessionError.fromConnectionError
  announces s := decide (s.monitor = .done)
  callable s := s.handles != 0
  free s
    | .dropHandle => s.handles != 1
    | _ => true

theorem closed_lawful : closed.Lawful Told where
  kept told stepped := told.step stepped
  answered told ready := Option.ne_none_iff_exists'.mp (told.finished (of_decide_eq_true ready))
  stays {s event t} told ready stepped := by
    have ended := of_decide_eq_true ready
    have same : t.monitor = .done ∧ t.closeError = s.closeError := by
      cases moves_of_step stepped with
      | handles _ | lost _ => exact ⟨ended, rfl⟩
      | closes code reason =>
          obtain ⟨stored, monitor, _⟩ := rest_closeConnection s code reason
          exact ⟨monitor.trans ended, stored⟩
      | closed _ waits =>
          rw [ended] at waits
          obtain other | other := waits <;> cases other
      | handlesGone other | drops other | stores other =>
          rw [ended] at other
          cases other
    exact ⟨decide_eq_true same.1, same.2⟩

/-- The monitor has something to end it. -/
def Ends (s : State) : Prop :=
  s.connReason ≠ none ∨ s.handles = 0 ∨ s.monitor = .dropped

/-- Steps that the monitor waits for nobody to take. -/
def Event.Own : Event → Prop
  | closed | handlesGone | advance => True
  | _ => False

def Monitor.rank : Monitor → Nat
  | done => 0
  | seen _ => 1
  | awaiting => 2
  | dropped => 3
  | select => 4

theorem own_step (told : Told s) (stepped : step s event = some t) (own : event.Own) :
    t.monitor.rank < s.monitor.rank ∧ Ends t := by
  cases event with
  | closed =>
      rw [step] at stepped
      split at stepped <;> cases stepped
      next error selects isClosed =>
        exact ⟨by simp [selects, Monitor.rank], .inl (by rw [isClosed]; exact Option.some_ne_none error)⟩
      next error awaits isClosed =>
        exact ⟨by simp [awaits, Monitor.rank], .inl (by rw [isClosed]; exact Option.some_ne_none error)⟩
  | handlesGone =>
      rw [step] at stepped
      split at stepped <;> cases stepped
      next gone => exact ⟨by simp [gone.1, Monitor.rank], .inr (.inr rfl)⟩
  | advance =>
      rw [step] at stepped
      split at stepped <;> cases stepped
      next dropped =>
        refine ⟨by simp [dropped, Monitor.rank], .inl ?_⟩
        have reasons := connReason_closeConnection s 0 (asBytes "last session handle dropped")
        exact fun isOpen => Option.some_ne_none _ (reasons.symm.trans isOpen)
      next error seen =>
        exact ⟨by simp [seen, Monitor.rank], .inl (by rw [told.seen seen]; exact Option.some_ne_none error)⟩
  | _ => cases own

theorem own_progress (told : Told s) (ends : Ends s) :
    s.monitor = .done ∨ ∃ event t, event.Own ∧ step s event = some t := by
  cases stands : s.monitor with
  | select =>
      right
      cases closed : s.connReason with
      | some error => exact ⟨.closed, _, trivial, by rw [step, stands, closed]⟩
      | none =>
          rcases ends with isClosed | gone | dropped
          · exact absurd closed isClosed
          · exact ⟨.handlesGone, _, trivial, if_pos ⟨stands, gone⟩⟩
          · rw [stands] at dropped
            cases dropped
  | awaiting =>
      obtain ⟨error, closed⟩ := Option.ne_none_iff_exists'.mp (told.awaits stands)
      exact .inr ⟨.closed, _, trivial, by rw [step, stands, closed]⟩
  | done => exact .inl rfl
  | _ => exact .inr ⟨.advance, _, trivial, by rw [step, stands]⟩

theorem done_reached (told : Told s) (ends : Ends s) : ∃ t, Reaches step Event.Own s t ∧ t.monitor = .done := by
  obtain ⟨t, reached, _, finished⟩ := @reaches_of_progress _ _ step (fun s => Told s ∧ Ends s)
    (fun s => s.monitor = .done) Event.Own (fun s => s.monitor.rank)
    (fun both stepped own => ⟨both.1.step stepped, (own_step both.1 stepped own).2⟩)
    (fun both stepped own => (own_step both.1 stepped own).1)
    (fun both => own_progress both.1 both.2) s ⟨told, ends⟩
  exact ⟨t, reached, finished⟩

end Webtrans.Session.Raw
