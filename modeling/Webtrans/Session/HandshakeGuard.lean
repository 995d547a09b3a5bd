import Webtrans.Session.HandshakeProgress

namespace Webtrans.Session.Handshake

open Webtrans.Data Webtrans.Proto

/-! What the guard of a handshake closes (`HandshakeGuard` in `lib.rs` of
Quion). -/

variable {backend : Backend} {url : ClientUrlCrate} {http : StatusCrate} {setup : Setup url http}

/-- The handshake of the party failed, or was dropped. -/
def State.aborted (s : State backend url http) : Party → Bool
  | .client =>
      match s.client with
      | .failed _ | .cancelled => true
      | _ => false
  | .server =>
      match s.server with
      | .failed _ | .cancelled => true
      | _ => false

/-- The guard closes what a handshake leaves behind, and nothing else. -/
structure Guarded (s : State backend url http) : Prop where
  closes : ∀ party close, s.guarded party = some close →
    backend = .quion ∧ s.aborted party = true ∧ close = (0x102, asBytes "WebTransport handshake aborted")
  closed : ∀ party, backend = .quion → s.aborted party = true →
    s.lost party ≠ none ∨ s.guarded party ≠ none

section Guarded

variable {s next : State backend url http}

theorem Guarded.frame (guard : Guarded s) (guarded : next.guarded = s.guarded)
    (aborted : ∀ party, next.aborted party = s.aborted party)
    (lost : ∀ party, s.lost party ≠ none → next.lost party ≠ none) : Guarded next where
  closes party close found := by
    rw [guarded] at found
    rw [aborted]
    exact guard.closes party close found
  closed party quion left := by
    rw [aborted] at left
    rw [guarded]
    exact (guard.closed party quion left).imp_left (lost party)

theorem guarded_dropGuard (s : State backend url http) (party : Party) :
    (s.dropGuard party).guarded =
      if backend = .quion ∧ s.lost party = none then
        Function.update s.guarded party (some (0x102, asBytes "WebTransport handshake aborted"))
      else s.guarded := by
  by_cases drops : backend = .quion ∧ s.lost party = none
  · rw [State.dropGuard, if_pos drops, if_pos drops]
  · rw [State.dropGuard, if_neg drops, if_neg drops]

theorem Guarded.leave (guard : Guarded s) (party : Party)
    (error : Option (HandshakeError backend url.toUrlCrate http.toHttpCrate)) : Guarded (s.leave party error) := by
  have left : (s.leave party error).aborted party = true := by
    cases party <;> cases error <;> rfl
  have elsewhere : ∀ other, other ≠ party → (s.leave party error).aborted other = s.aborted other := by
    intro other differs
    cases party <;> cases other <;> first | exact absurd rfl differs | rw [State.leave, dropGuard_eq]; rfl
  have lost : (s.leave party error).lost = s.lost := by
    cases party <;> rw [State.leave, dropGuard_eq] <;> rfl
  have guarded : (s.leave party error).guarded =
      if backend = .quion ∧ s.lost party = none then
        Function.update s.guarded party (some (0x102, asBytes "WebTransport handshake aborted"))
      else s.guarded := by
    cases party with
    | client => exact guarded_dropGuard (s.retire .client) .client
    | server => exact guarded_dropGuard (s.retire .server) .server
  constructor
  · intro other close found
    rw [guarded] at found
    by_cases same : other = party
    · subst same
      split at found
      next drops =>
        rw [Function.update_self] at found
        cases found
        exact ⟨drops.1, left, rfl⟩
      next =>
        obtain ⟨quion, _, rest⟩ := guard.closes other close found
        exact ⟨quion, left, rest⟩
    · rw [elsewhere other same]
      apply guard.closes other close
      split at found
      · rw [Function.update_of_ne same] at found
        exact found
      · exact found
  · intro other quion aborted
    rw [lost, guarded]
    by_cases same : other = party
    · subst same
      by_cases whole : s.lost other = none
      · rw [if_pos ⟨quion, whole⟩, Function.update_self]
        exact .inr (Option.some_ne_none _)
      · exact .inl whole
    · rw [elsewhere other same] at aborted
      refine (guard.closed other quion aborted).imp_right ?_
      intro known
      split
      · rw [Function.update_of_ne same]
        exact known
      · exact known

theorem guarded_step (guard : Guarded s) {event : Event backend http}
    (stepped : step setup s event = some next) : Guarded next := by
  have client : ∀ {t : State backend url http}, (∀ error, s.client ≠ .failed error) →
      s.client ≠ .cancelled →
      (∀ error, t.client ≠ .failed error) → t.client ≠ .cancelled → t.server = s.server →
      ∀ party, t.aborted party = s.aborted party := by
    intro t notFailed notCancelled stillNot neither same party
    cases party with
    | client =>
        cases before : s.client <;> cases after : t.client <;>
          first | exact absurd before (notFailed _) | exact absurd before notCancelled |
            exact absurd after (stillNot _) | exact absurd after neither | simp [State.aborted, before, after]
    | server => rw [State.aborted, State.aborted, same]
  have server : ∀ {t : State backend url http}, (∀ error, s.server ≠ .failed error) →
      s.server ≠ .cancelled →
      (∀ error, t.server ≠ .failed error) → t.server ≠ .cancelled → t.client = s.client →
      ∀ party, t.aborted party = s.aborted party := by
    intro t notFailed notCancelled stillNot neither same party
    cases party with
    | client => rw [State.aborted, State.aborted, same]
    | server =>
        cases before : s.server <;> cases after : t.server <;>
          first | exact absurd before (notFailed _) | exact absurd before notCancelled |
            exact absurd after (stillNot _) | exact absurd after neither | simp [State.aborted, before, after]
  have same : ∀ party, s.lost party ≠ none → s.lost party ≠ none := fun _ known => known
  cases moves_of_step stepped with
  | fails fails => exact guard.leave _ _
  | cancelled active => exact guard.leave _ none
  | openedBi starting =>
      have phase := client_of_starting starting
      exact guard.frame rfl (client (by simp [phase]) (by simp [phase]) (fun _ => nofun) nofun rfl) same
  | readResponse phase =>
      exact guard.frame rfl (client (by simp [phase]) (by simp [phase]) (fun _ => nofun) nofun rfl) same
  | wroteRequest phase =>
      exact guard.frame rfl (client (by simp [phase]) (by simp [phase]) (fun _ => nofun) nofun rfl) same
  | acceptedBi starting =>
      have phase := server_of_starting starting
      exact guard.frame rfl (server (by simp [phase]) (by simp [phase]) (fun _ => nofun) nofun rfl) same
  | readRequest phase =>
      exact guard.frame rfl (server (by simp [phase]) (by simp [phase]) (fun _ => nofun) nofun rfl) same
  | answered choice phase =>
      exact guard.frame rfl (server (by simp [phase]) (by simp [phase]) (fun _ => nofun) nofun rfl) same
  | rejected phase =>
      exact guard.frame rfl (server (by simp [phase]) (by simp [phase]) (fun _ => nofun) nofun rfl) same
  | accepted phase =>
      exact guard.frame rfl (server (by simp [phase]) (by simp [phase]) (fun _ => nofun) nofun rfl) same
  | refused phase =>
      exact guard.frame rfl (server (by simp [phase]) (by simp [phase]) (fun _ => nofun) nofun rfl) same
  | respondFailed phase =>
      exact guard.frame rfl (server (by simp [phase]) (by simp [phase]) (fun _ => nofun) nofun rfl) same
  | @lost party error io whole =>
      refine guard.frame rfl (fun _ => by rfl) ?_
      intro other known
      by_cases moved : other = party
      · rw [moved, whole] at known
        exact absurd rfl known
      · simp only [Function.update_of_ne moved]
        exact known
  | _ => exact guard.frame rfl (fun party => by cases party <;> rfl) same

end Guarded

/-- In Quion a connection does not outlive a handshake that failed or was
dropped, and no other handshake closes it. -/
theorem guard_closes {events : List (Event backend http)} {s : State backend url http}
    (ran : run (step setup) start events = some s) (party : Party) :
    (∀ close, s.guarded party = some close →
      backend = .quion ∧ s.aborted party = true ∧ close = (0x102, asBytes "WebTransport handshake aborted")) ∧
    (backend = .quion → s.aborted party = true → s.lost party ≠ none ∨ s.guarded party ≠ none) := by
  have initial : Guarded (start : State backend url http) := by
    constructor
    · intro party close found
      cases found
    · intro party _ left
      cases party <;> cases left
  have guard := run_invariant (fun guard stepped => guarded_step guard stepped) initial ran
  exact ⟨guard.closes party, guard.closed party⟩

/-- A client whose future is dropped at once. -/
theorem guard_closes_cancelled :
    let setup := roomSetup fun headers => ⟨headers.fields.entries.toList, headers.fields.entries.coe_toList⟩
    ∃ s : State .quion ConnectRequest.roomUrls ConnectResponse.sampleStatuses,
      run (step setup) start [.cancel .client] = some s ∧ s.client = .cancelled ∧
        (s.lost .client ≠ none ∨ s.guarded .client ≠ none) := by
  intro setup
  have ran : run (step setup) start [.cancel .client] =
      some (State.leave (start : State .quion _ _) .client none) := rfl
  exact ⟨_, ran, rfl, (guard_closes ran .client).2 rfl rfl⟩

end Webtrans.Session.Handshake
