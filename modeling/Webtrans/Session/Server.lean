import Mathlib.Data.List.Nodup
import Mathlib.Data.List.Perm.Basic
import Webtrans.Data.Transition

namespace Webtrans.Session.Server

open Webtrans.Data

/-! `Server::accept` (`server.rs`, the same loop in both backends): one branch
of its `select!` takes connections from the endpoint and starts their
handshakes, the other returns the result of a finished handshake. -/

section

variable {Request : Type}

inductive ServerError where
  | handshakeTimeout
  | other (cause : String)
deriving DecidableEq, Repr

structure Config where
  handshakeTimeout : Option Nat
  maxPendingHandshakes : Nat
  nonZero : 0 < maxPendingHandshakes

/-- How the future of a handshake ends. -/
inductive Outcome (Request : Type) where
  | accepted (request : Request)
  | failed (cause : String)
  | elapsed

/-- Without a timeout no handshake runs out of time. -/
def handshake (timeout : Option Nat) :
    Outcome Request → Option (Except ServerError Request)
  | .accepted request => some (.ok request)
  | .failed cause => some (.error (.other cause))
  | .elapsed => timeout.map fun _ => .error .handshakeTimeout

/-- What becomes of a connection, and the ends of the endpoint that calls report. -/
inductive Entry (Request : Type) where
  | took (conn : Nat)
  | settled (conn : Nat) (result : Except ServerError Request)
  | gave (conn : Nat) (result : Except ServerError Request)
  | ended
deriving DecidableEq

/-- A member of the `FuturesUnordered`, with its result once it has one. -/
structure Handshake (Request : Type) where
  conn : Nat
  result : Option (Except ServerError Request) := none
deriving DecidableEq

/-- A server and its endpoint.  Connections are numbered as they arrive; the
history has the last entry first. -/
structure State (Request : Type) where
  arrived : Nat := 0
  incoming : List Nat := []
  closed : Bool := false
  accept : List (Handshake Request) := []
  calling : Bool := false
  history : List (Entry Request) := []
deriving DecidableEq

inductive Event (Request : Type) where
  | arrive
  | close
  | settle (index : Nat) (outcome : Outcome Request)
  | call
  | cancel
  /-- The first branch of the `select!`. -/
  | endpointAccept
  /-- The second branch, with the member that `next` finds. -/
  | next (index : Nat)

def start : State Request := {}

/-- `res?` returns from the function, whatever `accept` still holds.  A closed
endpoint is taken to give no connection on any poll; Quinn still hands over
those that were queued at the close. -/
def endpointAccept (s : State Request) : Option (State Request) :=
  if s.closed then
    some { s with calling := false, history := .ended :: s.history }
  else
    match s.incoming with
    | [] => none
    | conn :: incoming =>
        some { s with incoming, accept := s.accept ++ [{ conn }], history := .took conn :: s.history }

def step (config : Config) (s : State Request) :
    Event Request → Option (State Request)
  | .arrive => some { s with arrived := s.arrived + 1, incoming := s.incoming ++ [s.arrived] }
  | .close => some { s with closed := true }
  | .settle index outcome =>
      match s.accept[index]?, handshake config.handshakeTimeout outcome with
      | some ⟨conn, none⟩, some result =>
          some { s with
            accept := s.accept.set index ⟨conn, some result⟩
            history := .settled conn result :: s.history }
      | _, _ => none
  | .call => if s.calling then none else some { s with calling := true }
  | .cancel => if s.calling then some { s with calling := false } else none
  | .endpointAccept =>
      if s.calling && decide (s.accept.length < config.maxPendingHandshakes) then endpointAccept s else none
  | .next index =>
      if s.calling then
        match s.accept[index]? with
        | some ⟨conn, some result⟩ =>
            some { s with
              accept := s.accept.eraseIdx index
              calling := false
              history := .gave conn result :: s.history }
        | _ => none
      else none

/-- What an entry requires of the entries before it. -/
def Entry.Fits (past : List (Entry Request)) : Entry Request → Prop
  | took _ => True
  | settled _ _ => True
  | gave conn result =>
      .took conn ∈ past ∧ .settled conn result ∈ past ∧ ∀ other, .gave conn other ∉ past
  | ended => ∀ conn, .took conn ∈ past → ∃ result, .gave conn result ∈ past

/-- A call returns `None` only when every connection taken has had its result
returned, and no call returns a result that is not one or was returned before. -/
def LosesNothing : List (Entry Request) → Prop
  | [] => True
  | entry :: past => entry.Fits past ∧ LosesNothing past

/-- What holds of every run. -/
structure State.Valid (config : Config) (s : State Request) : Prop where
  within : s.accept.length ≤ config.maxPendingHandshakes
  distinct : (s.accept.map Handshake.conn ++ s.incoming).Nodup
  known : ∀ conn ∈ s.accept.map Handshake.conn ++ s.incoming, conn < s.arrived
  knownGiven : ∀ conn result, .gave conn result ∈ s.history → conn < s.arrived
  ungiven : ∀ conn ∈ s.accept.map Handshake.conn ++ s.incoming, ∀ result, .gave conn result ∉ s.history
  taken : ∀ member ∈ s.accept, .took member.conn ∈ s.history
  settled : ∀ member ∈ s.accept, ∀ result, member.result = some result →
    .settled member.conn result ∈ s.history
  kept : ∀ conn, .took conn ∈ s.history →
    conn ∈ s.accept.map Handshake.conn ∨ ∃ result, .gave conn result ∈ s.history

/-- The endpoint is closed only while no handshake is pending, or by a server
that never has two of them. -/
def ClosesIdle (config : Config) (s : State Request) : Event Request → Prop
  | .close => config.maxPendingHandshakes = 1 ∨ s.accept = []
  | _ => True

variable {config : Config} {s after : State Request} {event : Event Request}

theorem step_cases (stepped : step config s event = some after) :
    match event with
    | .arrive => after = { s with arrived := s.arrived + 1, incoming := s.incoming ++ [s.arrived] }
    | .close => after = { s with closed := true }
    | .settle index outcome => ∃ conn result, s.accept[index]? = some ⟨conn, none⟩ ∧
        handshake config.handshakeTimeout outcome = some result ∧
        after = { s with
          accept := s.accept.set index ⟨conn, some result⟩
          history := .settled conn result :: s.history }
    | .call => s.calling = false ∧ after = { s with calling := true }
    | .cancel => s.calling = true ∧ after = { s with calling := false }
    | .endpointAccept => s.calling = true ∧ s.accept.length < config.maxPendingHandshakes ∧
        ((s.closed = true ∧ after = { s with calling := false, history := .ended :: s.history }) ∨
          ∃ conn incoming, s.closed = false ∧ s.incoming = conn :: incoming ∧
            after = { s with
              incoming, accept := s.accept ++ [{ conn }], history := .took conn :: s.history })
    | .next index => ∃ conn result, s.calling = true ∧ s.accept[index]? = some ⟨conn, some result⟩ ∧
        after = { s with
          accept := s.accept.eraseIdx index
          calling := false
          history := .gave conn result :: s.history } := by
  cases event with
  | arrive => exact (Option.some.inj stepped).symm
  | close => exact (Option.some.inj stepped).symm
  | settle index outcome =>
      rw [step] at stepped
      split at stepped
      next conn result found settles =>
        exact ⟨conn, result, found, settles, (Option.some.inj stepped).symm⟩
      next => cases stepped
  | call =>
      rw [step] at stepped
      split at stepped
      next => cases stepped
      next idle => exact ⟨Bool.eq_false_iff.mpr idle, (Option.some.inj stepped).symm⟩
  | cancel =>
      rw [step] at stepped
      split at stepped
      next calling => exact ⟨calling, (Option.some.inj stepped).symm⟩
      next => cases stepped
  | endpointAccept =>
      rw [step] at stepped
      split at stepped
      next enabled =>
        rw [Bool.and_eq_true, decide_eq_true_iff] at enabled
        obtain ⟨calling, room⟩ := enabled
        refine ⟨calling, room, ?_⟩
        rw [endpointAccept] at stepped
        split at stepped
        next closed => exact .inl ⟨closed, (Option.some.inj stepped).symm⟩
        next isOpen =>
          split at stepped
          next => cases stepped
          next conn incoming waiting =>
            exact .inr ⟨conn, incoming, Bool.eq_false_iff.mpr isOpen, waiting, (Option.some.inj stepped).symm⟩
      next => cases stepped
  | next index =>
      rw [step] at stepped
      split at stepped
      next calling =>
        split at stepped
        next conn result found => exact ⟨conn, result, calling, found, (Option.some.inj stepped).symm⟩
        next => cases stepped
      next => cases stepped

theorem start_valid (config : Config) : (start : State Request).Valid config where
  within := Nat.zero_le _
  distinct := List.nodup_nil
  known := nofun
  knownGiven := nofun
  ungiven := nofun
  taken := nofun
  settled := nofun
  kept := nofun

theorem conns_settled {accept : List (Handshake Request)} {index conn : Nat}
    {before result : Option (Except ServerError Request)}
    (found : accept[index]? = some ⟨conn, before⟩) :
    (accept.set index ⟨conn, result⟩).map Handshake.conn = accept.map Handshake.conn := by
  induction accept generalizing index with
  | nil => cases found
  | cons member accept ih =>
      cases index with
      | zero =>
          obtain rfl := Option.some.inj found
          rfl
      | succ index => exact congrArg (member.conn :: ·) (ih found)

theorem perm_eraseIdx {α : Type} {values : List α} {index : Nat} {value : α}
    (found : values[index]? = some value) : values.Perm (value :: values.eraseIdx index) := by
  obtain ⟨bound, rfl⟩ := List.getElem?_eq_some_iff.mp found
  exact (List.getElem_cons_eraseIdx_perm bound).symm

namespace State.Valid

theorem arrive (valid : s.Valid config) :
    State.Valid config { s with arrived := s.arrived + 1, incoming := s.incoming ++ [s.arrived] } where
  within := valid.within
  distinct := by
    rw [← List.append_assoc]
    refine List.nodup_append.mpr ⟨valid.distinct, List.nodup_singleton _, ?_⟩
    intro conn member other fresh
    rw [List.mem_singleton.mp fresh]
    exact Nat.ne_of_lt (valid.known conn member)
  known conn member := by
    rw [← List.append_assoc] at member
    rcases List.mem_append.mp member with old | fresh
    · exact Nat.lt_succ_of_lt (valid.known conn old)
    · rw [List.mem_singleton.mp fresh]
      exact Nat.lt_succ_self _
  knownGiven conn result gave := Nat.lt_succ_of_lt (valid.knownGiven conn result gave)
  ungiven conn member result gave := by
    rw [← List.append_assoc] at member
    rcases List.mem_append.mp member with old | fresh
    · exact valid.ungiven conn old result gave
    · rw [List.mem_singleton.mp fresh] at gave
      exact Nat.lt_irrefl _ (valid.knownGiven _ result gave)
  taken := valid.taken
  settled := valid.settled
  kept := valid.kept

theorem calls (valid : s.Valid config) (calling : Bool) : State.Valid config { s with calling } :=
  ⟨valid.within, valid.distinct, valid.known, valid.knownGiven, valid.ungiven, valid.taken, valid.settled,
    valid.kept⟩

/-- An entry that is about no connection taken or result given. -/
theorem note (valid : s.Valid config) (entry : Entry Request) (untaken : ∀ conn, .took conn ≠ entry)
    (ungiven : ∀ conn result, .gave conn result ≠ entry) :
    State.Valid config { s with history := entry :: s.history } where
  within := valid.within
  distinct := valid.distinct
  known := valid.known
  knownGiven conn result gave :=
    valid.knownGiven conn result ((List.mem_cons.mp gave).resolve_left (ungiven conn result))
  ungiven conn member result gave :=
    valid.ungiven conn member result ((List.mem_cons.mp gave).resolve_left (ungiven conn result))
  taken member held := List.mem_cons_of_mem _ (valid.taken member held)
  settled member held value has := List.mem_cons_of_mem _ (valid.settled member held value has)
  kept conn took := by
    rcases valid.kept conn ((List.mem_cons.mp took).resolve_left (untaken conn)) with pending | given
    · exact .inl pending
    · obtain ⟨value, gave⟩ := given
      exact .inr ⟨value, List.mem_cons_of_mem _ gave⟩

theorem take {conn : Nat} {incoming : List Nat} (valid : s.Valid config)
    (room : s.accept.length < config.maxPendingHandshakes) (waiting : s.incoming = conn :: incoming) :
    State.Valid config
      { s with incoming, accept := s.accept ++ [⟨conn, none⟩], history := .took conn :: s.history } := by
  have conns : (s.accept ++ [(⟨conn, none⟩ : Handshake Request)]).map Handshake.conn ++ incoming =
      s.accept.map Handshake.conn ++ s.incoming := by
    rw [waiting, List.map_append, List.append_assoc]
    rfl
  constructor
  case within =>
    rw [List.length_append]
    exact room
  case distinct =>
    rw [conns]
    exact valid.distinct
  case known =>
    rw [conns]
    exact valid.known
  case knownGiven =>
    intro other result gave
    exact valid.knownGiven other result ((List.mem_cons.mp gave).resolve_left nofun)
  case ungiven =>
    rw [conns]
    intro other member result gave
    exact valid.ungiven other member result ((List.mem_cons.mp gave).resolve_left nofun)
  case taken =>
    intro member found
    rcases List.mem_append.mp found with old | fresh
    · exact List.mem_cons_of_mem _ (valid.taken member old)
    · rw [List.mem_singleton.mp fresh]
      exact List.mem_cons_self
  case settled =>
    intro member found result has
    rcases List.mem_append.mp found with old | fresh
    · exact List.mem_cons_of_mem _ (valid.settled member old result has)
    · rw [List.mem_singleton.mp fresh] at has
      cases has
  case kept =>
    intro other took
    rw [List.map_append]
    rcases List.mem_cons.mp took with same | before
    · cases same
      exact .inl (List.mem_append_right _ (List.mem_singleton.mpr rfl))
    · rcases valid.kept other before with pending | given
      · exact .inl (List.mem_append_left _ pending)
      · obtain ⟨result, gave⟩ := given
        exact .inr ⟨result, List.mem_cons_of_mem _ gave⟩

theorem settle {index conn : Nat} {result : Except ServerError Request} (valid : s.Valid config)
    (found : s.accept[index]? = some ⟨conn, none⟩) :
    State.Valid config { s with
      accept := s.accept.set index ⟨conn, some result⟩, history := .settled conn result :: s.history } := by
  have noted := valid.note (.settled conn result) nofun nofun
  have conns := @conns_settled _ _ _ _ _ (some result) found
  constructor
  case within =>
    rw [List.length_set]
    exact noted.within
  case distinct =>
    rw [conns]
    exact noted.distinct
  case known =>
    rw [conns]
    exact noted.known
  case knownGiven => exact noted.knownGiven
  case ungiven =>
    rw [conns]
    exact noted.ungiven
  case taken =>
    intro member held
    rcases List.mem_or_eq_of_mem_set held with old | rfl
    · exact noted.taken member old
    · exact noted.taken ⟨conn, none⟩ (List.mem_of_getElem? found)
  case settled =>
    intro member held has settled
    rcases List.mem_or_eq_of_mem_set held with old | rfl
    · exact noted.settled member old has settled
    · cases settled
      exact List.mem_cons_self
  case kept =>
    rw [conns]
    exact noted.kept

theorem give {index conn : Nat} {result : Except ServerError Request} (valid : s.Valid config)
    (found : s.accept[index]? = some ⟨conn, some result⟩) :
    State.Valid config { s with
      accept := s.accept.eraseIdx index, calling := false, history := .gave conn result :: s.history } := by
  have reordered := perm_eraseIdx found
  have conns := (reordered.map Handshake.conn).append_right s.incoming
  have rest : ∀ other ∈ (s.accept.eraseIdx index).map Handshake.conn ++ s.incoming,
      other ∈ s.accept.map Handshake.conn ++ s.incoming := fun other member =>
    conns.mem_iff.mpr (List.mem_cons_of_mem _ member)
  have distinct := conns.nodup_iff.mp valid.distinct
  constructor
  case within => exact Nat.le_trans (List.length_eraseIdx_le _ _) valid.within
  case distinct => exact (List.nodup_cons.mp distinct).2
  case known => exact fun other member => valid.known other (rest other member)
  case knownGiven =>
    intro other given gave
    rcases List.mem_cons.mp gave with same | before
    · cases same
      exact valid.known conn (conns.mem_iff.mpr List.mem_cons_self)
    · exact valid.knownGiven other given before
  case ungiven =>
    intro other member given gave
    rcases List.mem_cons.mp gave with same | before
    · cases same
      exact (List.nodup_cons.mp distinct).1 member
    · exact valid.ungiven other (rest other member) given before
  case taken =>
    intro member held
    exact List.mem_cons_of_mem _ (valid.taken member (List.mem_of_mem_eraseIdx held))
  case settled =>
    intro member held value has
    exact List.mem_cons_of_mem _ (valid.settled member (List.mem_of_mem_eraseIdx held) value has)
  case kept =>
    intro other took
    rcases valid.kept other ((List.mem_cons.mp took).resolve_left nofun) with pending | given
    · rcases List.mem_cons.mp ((reordered.map Handshake.conn).mem_iff.mp pending) with rfl | left
      · exact .inr ⟨result, List.mem_cons_self⟩
      · exact .inl left
    · obtain ⟨value, gave⟩ := given
      exact .inr ⟨value, List.mem_cons_of_mem _ gave⟩

theorem finish (valid : s.Valid config) :
    State.Valid config { s with calling := false, history := .ended :: s.history } :=
  (valid.note .ended nofun nofun).calls false

end State.Valid

theorem step_valid (valid : s.Valid config) (stepped : step config s event = some after) :
    after.Valid config := by
  have happened := step_cases stepped
  cases event with
  | arrive =>
      rw [happened]
      exact valid.arrive
  | close =>
      rw [happened]
      exact ⟨valid.within, valid.distinct, valid.known, valid.knownGiven, valid.ungiven, valid.taken,
        valid.settled, valid.kept⟩
  | settle index outcome =>
      obtain ⟨conn, result, found, _, rfl⟩ := happened
      exact valid.settle found
  | call =>
      obtain ⟨_, rfl⟩ := happened
      exact valid.calls true
  | cancel =>
      obtain ⟨_, rfl⟩ := happened
      exact valid.calls false
  | endpointAccept =>
      obtain ⟨_, room, ⟨_, rfl⟩ | ⟨conn, incoming, _, waiting, rfl⟩⟩ := happened
      · exact valid.finish
      · exact valid.take room waiting
  | next index =>
      obtain ⟨conn, result, _, found, rfl⟩ := happened
      exact valid.give found

/-- What a run keeps whose endpoint is closed with no handshake pending. -/
structure State.Idle (config : Config) (s : State Request) : Prop where
  valid : s.Valid config
  losesNothing : LosesNothing s.history
  closed : s.closed = true → config.maxPendingHandshakes = 1 ∨ s.accept = []

theorem start_idle (config : Config) : (start : State Request).Idle config :=
  ⟨start_valid config, trivial, nofun⟩

/-- The first branch finds the endpoint closed only after the last result. -/
theorem State.Idle.emptied (idle : s.Idle config) (closed : s.closed = true)
    (room : s.accept.length < config.maxPendingHandshakes) : s.accept = [] := by
  rcases idle.closed closed with one | empty
  · rw [one] at room
    exact List.eq_nil_of_length_eq_zero (Nat.lt_one_iff.mp room)
  · exact empty

theorem step_idle (idle : s.Idle config) (stepped : step config s event = some after)
    (met : ClosesIdle config s event) : after.Idle config := by
  have valid := step_valid idle.valid stepped
  have happened := step_cases stepped
  cases event with
  | arrive =>
      rw [happened] at valid ⊢
      exact ⟨valid, idle.losesNothing, idle.closed⟩
  | close =>
      rw [happened] at valid ⊢
      exact ⟨valid, idle.losesNothing, fun _ => met⟩
  | settle index outcome =>
      obtain ⟨conn, result, found, _, rfl⟩ := happened
      refine ⟨valid, ⟨trivial, idle.losesNothing⟩, fun closed => ?_⟩
      rcases idle.closed closed with one | empty
      · exact .inl one
      · rw [empty] at found
        cases found
  | call =>
      obtain ⟨_, rfl⟩ := happened
      exact ⟨valid, idle.losesNothing, idle.closed⟩
  | cancel =>
      obtain ⟨_, rfl⟩ := happened
      exact ⟨valid, idle.losesNothing, idle.closed⟩
  | endpointAccept =>
      obtain ⟨_, room, ⟨closed, rfl⟩ | ⟨conn, incoming, isOpen, waiting, rfl⟩⟩ := happened
      · refine ⟨valid, ⟨fun conn took => ?_, idle.losesNothing⟩, idle.closed⟩
        have kept := idle.valid.kept conn took
        rw [idle.emptied closed room] at kept
        exact kept.resolve_left List.not_mem_nil
      · refine ⟨valid, ⟨trivial, idle.losesNothing⟩, fun closed => ?_⟩
        rw [isOpen] at closed
        cases closed
  | next index =>
      obtain ⟨conn, result, _, found, rfl⟩ := happened
      have member := List.mem_of_getElem? found
      refine ⟨valid, ⟨⟨idle.valid.taken _ member, idle.valid.settled _ member result rfl, fun other => ?_⟩,
        idle.losesNothing⟩, fun closed => ?_⟩
      · exact idle.valid.ungiven conn
          (List.mem_append_left _ (List.mem_map_of_mem (f := Handshake.conn) member)) other
      · rcases idle.closed closed with one | empty
        · exact .inl one
        · rw [empty] at found
          cases found

def Serving (event : Event Request) : Prop := event ≠ .close

/-- The first branch finds the endpoint closed while a handshake is pending. -/
theorem endpointAccept_loses (valid : s.Valid config) (calling : s.calling = true) (closed : s.closed = true)
    (pending : s.accept ≠ []) (room : s.accept.length < config.maxPendingHandshakes) :
    ∃ last, step config s .endpointAccept = some last ∧ ¬ LosesNothing last.history := by
  refine ⟨{ s with calling := false, history := .ended :: s.history }, ?_, ?_⟩
  · rw [step, calling, decide_eq_true room, Bool.and_self, if_pos rfl, endpointAccept, if_pos closed]
  · intro losesNothing
    obtain ⟨fits, _⟩ := losesNothing
    obtain ⟨member, found⟩ := List.exists_mem_of_ne_nil _ pending
    obtain ⟨result, gave⟩ := fits member.conn (valid.taken member found)
    exact valid.ungiven member.conn
      (List.mem_append_left _ (List.mem_map_of_mem (f := Handshake.conn) found)) result gave

theorem reaches_calling (reached : Reaches (step config) Serving s after) :
    Reaches (step config) Serving s { after with calling := true } := by
  cases calling : after.calling with
  | true =>
      rw [← calling]
      exact reached
  | false =>
      refine reached.tail .call nofun ?_
      rw [step, calling]
      rfl

/-- A call may return the result of the first handshake. -/
theorem reaches_served {first : Handshake Request} {rest : List (Handshake Request)}
    (holds : s.accept = first :: rest) :
    ∃ served, Reaches (step config) Serving s served ∧ served.accept = rest ∧ served.closed = s.closed := by
  have called : Reaches (step config) Serving s { s with calling := true } := reaches_calling (Reaches.refl s)
  obtain ⟨conn, result⟩ := first
  cases result with
  | some result =>
      refine ⟨{ s with accept := rest, calling := false, history := .gave conn result :: s.history },
        called.tail (.next 0) nofun ?_, rfl, rfl⟩
      rw [step, if_pos rfl, holds]
      rfl
  | none =>
      have settled : Reaches (step config) Serving s { s with
          accept := ⟨conn, some (.error (.other ""))⟩ :: rest, calling := true
          history := .settled conn (.error (.other "")) :: s.history } := by
        refine called.tail (.settle 0 (.failed "")) nofun ?_
        rw [step, holds]
        rfl
      exact ⟨_, settled.tail (.next 0) nofun rfl, rfl, rfl⟩

theorem reached_loses {reached : State Request} (valid : s.Valid config)
    (leads : Reaches (step config) Serving s reached) (closed : reached.closed = true)
    (pending : reached.accept ≠ []) (room : reached.accept.length < config.maxPendingHandshakes) :
    ∃ last, Reaches (step config) Serving s last ∧ ¬ LosesNothing last.history := by
  have called := reaches_calling leads
  obtain ⟨last, stepped, loses⟩ := endpointAccept_loses (called.invariant step_valid valid) rfl closed pending room
  exact ⟨last, called.tail .endpointAccept nofun stepped, loses⟩

/-- Where a handshake is pending at the close, calls may come to return `None`
before its result. -/
theorem closed_loses (valid : s.Valid config) (closed : s.closed = true) (pending : s.accept ≠ [])
    (several : config.maxPendingHandshakes ≠ 1) :
    ∃ last, Reaches (step config) Serving s last ∧ ¬ LosesNothing last.history := by
  by_cases room : s.accept.length < config.maxPendingHandshakes
  · exact reached_loses valid (Reaches.refl s) closed pending room
  · -- The guard holds the first branch back until one result is returned.
    obtain ⟨first, rest, holds⟩ := List.exists_cons_of_ne_nil pending
    obtain ⟨served, leads, accepts, same⟩ := @reaches_served _ config _ _ _ holds
    have within := valid.within
    have positive := config.nonZero
    rw [holds, List.length_cons] at room within
    refine reached_loses valid leads (same.trans closed) ?_ ?_
    · rw [accepts]
      intro empty
      rw [empty, List.length_nil] at room within
      omega
    · rw [accepts]
      omega

/-- No handshake is discarded in a run whose endpoint is closed only while none
is pending, or whose server has at most one at a time.  After any other close
there are calls that return `None` before a result. -/
theorem losesNothing_closesIdle {last : State Request} {events : List (Event Request)}
    (ran : run (step config) start events = some last) :
    (EachStep (step config) (ClosesIdle config) start events →
      Always (step config) (fun s => LosesNothing s.history) start events) ∧
    (AlwaysOnward (step config) Serving (fun s => LosesNothing s.history) start events →
      EachStep (step config) (ClosesIdle config) start events) := by
  have exact_condition : EachStep (step config) (ClosesIdle config) start events ↔
      AlwaysOnward (step config) Serving (fun s => LosesNothing s.history) start events := by
    refine eachStep_iff_alwaysOnward step_idle State.Idle.losesNothing ?_ ?_ (start_idle config) ran
    · intro state event serving
      cases event with
      | close => exact absurd rfl serving
      | _ => trivial
    · intro state event next idle stepped unmet
      cases event with
      | close =>
          obtain ⟨several, pending⟩ := not_or.mp unmet
          have valid := step_valid idle.valid stepped
          have closing : next = { state with closed := true } := step_cases stepped
          rw [closing] at valid ⊢
          obtain ⟨last, leads, loses⟩ := closed_loses valid rfl pending several
          obtain ⟨tail, serving, reached⟩ := leads
          exact ⟨tail, last, serving, reached, loses⟩
      | _ => exact absurd trivial unmet
  exact ⟨fun met => (exact_condition.mp met).always, exact_condition.mpr⟩

/-- Connection 0 is taken and the endpoint closed before its handshake is done. -/
def closedPending : List (Event Nat) := [.arrive, .call, .endpointAccept, .close, .endpointAccept]

/-- The call returns `None`; the handshake, accepted afterwards, waits for a call
that has no reason to come. -/
theorem losesNothing_closedPending :
    ∃ s : State Nat, run (step ⟨none, 2, Nat.zero_lt_two⟩) start (closedPending ++ [.settle 0 (.accepted 7)]) =
        some s ∧
      s.history = [.settled 0 (.ok 7), .ended, .took 0] ∧ s.accept = [⟨0, some (.ok 7)⟩] ∧
      ¬ LosesNothing s.history := by
  have ran : (run (step ⟨none, 2, Nat.zero_lt_two⟩) start (closedPending ++ [.settle 0 (.accepted 7)])).map
      (fun s : State Nat => (s.history, s.accept)) =
      some ([.settled 0 (.ok 7), .ended, .took 0], [⟨0, some (.ok 7)⟩]) := rfl
  obtain ⟨s, reached, final⟩ := Option.map_eq_some_iff.mp ran
  obtain ⟨history, accept⟩ := Prod.mk.inj final
  refine ⟨s, reached, history, accept, fun losesNothing => ?_⟩
  rw [history] at losesNothing
  obtain ⟨_, fits, _⟩ := losesNothing
  obtain ⟨result, gave⟩ := fits 0 List.mem_cons_self
  simp at gave

/-- Connection 0 is served before the endpoint is closed. -/
def closedServed : List (Event Nat) :=
  [.arrive, .call, .endpointAccept, .settle 0 (.accepted 7), .next 0, .close, .call, .endpointAccept]

theorem losesNothing_closedServed :
    Always (step ⟨some 1000, 2, Nat.zero_lt_two⟩) (fun s : State Nat => LosesNothing s.history) start
      closedServed := by
  refine (@losesNothing_closesIdle Nat ⟨some 1000, 2, Nat.zero_lt_two⟩ _ closedServed rfl).1 ?_
  intro front event back state split reached
  cases event with
  | close =>
      obtain rfl : front = closedServed.take 5 := by
        rcases front with
          _ | ⟨_, _ | ⟨_, _ | ⟨_, _ | ⟨_, _ | ⟨_, _ | ⟨_, _ | ⟨_, _ | ⟨_, front⟩⟩⟩⟩⟩⟩⟩⟩ <;>
          simp_all [closedServed]
      obtain rfl := Option.some.inj reached
      exact .inr rfl
  | _ => trivial

end

end Webtrans.Session.Server
