import Webtrans.Session.Demultiplexing

namespace Webtrans.Session.Accept

open Webtrans.Data Webtrans.Proto

/-! The loop returns the error of a lost connection as soon as the queue is
empty, whatever the pending decodes hold. -/

variable {backend : Backend} {d : Direction} {session : VarInt} {s next : State backend}
  {event : Event backend}

/-- The stream has its complete header, and the application has not got it. -/
def Side.Deliverable (d : Direction) (session : VarInt) (side : Side backend) (id : Nat) : Prop :=
  ∃ stream, side.streams[id]? = some stream ∧ stream.Complete d session ∧ id ∉ side.delivered

namespace State

/-- Once an accept call has returned the connection error, every complete
stream that was taken from the queue is with the application. -/
def ErrorLast (session : VarInt) (s : State backend) : Prop :=
  ∀ failing error, (s.side failing).polled = some (.failed error) →
    ∀ d id stream, (s.side d).streams[id]? = some stream → id ∉ (s.side d).queue →
      stream.Complete d session → id ∈ (s.side d).delivered

/-- The connection is not lost while a stream waits to be delivered. -/
def LosesNothing (session : VarInt) (s : State backend) (event : Event backend) : Prop :=
  ∀ error, event = .lose error → ∀ d id, ¬ (s.side d).Deliverable d session id

/-- What a run keeps whose connection is lost with nothing to deliver. -/
structure Settled (session : VarInt) (s : State backend) : Prop where
  valid : s.Valid session
  lost : ∀ d error, (s.side d).polled = some (.failed error) → s.lost ≠ none
  nothing : s.lost ≠ none → ∀ d id, ¬ (s.side d).Deliverable d session id

end State

theorem start_settled : (start : State backend).Settled session where
  valid := start_valid
  lost d error failed := by cases d <;> cases failed
  nothing lost := absurd rfl lost

theorem State.Settled.errorLast (settled : s.Settled session) : s.ErrorLast session := by
  intro failing error failed d id stream found _ complete
  by_contra outside
  exact settled.nothing (settled.lost failing error failed) d id ⟨stream, found, complete, outside⟩

theorem polled_network {side after : Side backend} {happening : NetworkEvent}
    (happened : side.network happening = some after) : after.polled = side.polled := by
  rcases Side.network_cases happened with ⟨_, rfl⟩ | ⟨_, _, _, _, _, _, rfl⟩ <;> rfl

/-- On an open connection no poll returns an error. -/
theorem poll_not_failed {side after : Side backend} {completions : List Nat}
    (polled : side.poll d session none completions = some after) (error : SessionError backend) :
    after.polled ≠ some (.failed error) := by
  cases Side.poll_outcome polled with
  | parked parked _ _ _ => rw [parked]; exact nofun
  | ready _ ready _ => rw [ready]; exact nofun

theorem step_settled (settled : s.Settled session) (stepped : step session s event = some next)
    (met : s.LosesNothing session event) : next.Settled session := by
  have valid := step_valid settled.valid stepped
  cases event with
  | network moved happening =>
      obtain ⟨isOpen, side, happened, rfl⟩ := step_network_cases stepped
      refine ⟨valid, fun d error failed => ?_, fun lost => absurd isOpen (by rwa [State.lost_setSide] at lost)⟩
      rw [State.side_setSide] at failed
      split at failed
      next =>
        rw [polled_network happened] at failed
        exact absurd isOpen (settled.lost moved error failed)
      next => exact absurd isOpen (settled.lost d error failed)
  | lose error =>
      obtain ⟨_, rfl⟩ := step_lose_cases stepped
      refine ⟨valid, fun _ _ _ => nofun, fun _ d id => ?_⟩
      rw [State.side_lost]
      exact met error rfl d id
  | poll moved completions =>
      obtain ⟨polled, lost, elsewhere⟩ := step_poll_cases stepped
      refine ⟨valid, fun d error failed => ?_, fun cause d id => ?_⟩
      · rw [lost]
        by_cases same : d = moved
        · subst same
          intro isOpen
          rw [isOpen] at polled
          exact poll_not_failed polled error failed
        · rw [elsewhere d same] at failed
          exact settled.lost d error failed
      · rw [lost] at cause
        by_cases same : d = moved
        · subst same
          obtain ⟨error, reason⟩ := Option.ne_none_iff_exists'.mp cause
          rw [reason] at polled
          rw [Side.poll_lost polled]
          exact settled.nothing cause d id
        · rw [elsewhere d same]
          exact settled.nothing cause d id

/-- After the loss the next call returns the error, whatever is pending. -/
theorem overtakes {error : ConnectionError backend} {id : Nat}
    (deliverable : (s.side d).Deliverable d session id) :
    ∃ last, run (step session) { s with lost := some error } [.poll d []] = some last ∧
      ¬ last.ErrorLast session := by
  obtain ⟨stream, found, complete, outside⟩ := deliverable
  let side : Side backend :=
    { (s.side d).takeQueued with polled := some (.failed (.fromConnectionError error)) }
  let lost : State backend := { s with lost := some error }
  have polled : (lost.side d).poll d session lost.lost [] = some side := by
    rw [State.side_lost]
    rfl
  refine ⟨lost.setSide side d, run_cons_some (step_poll d [] polled), fun errorLast => outside ?_⟩
  have after : (lost.setSide side d).side d = side := by rw [State.side_setSide, if_pos rfl]
  have delivered := errorLast d _ (by rw [after]) d id stream (by rw [after]; exact found)
    (by rw [after]; exact List.not_mem_nil) complete
  rw [after] at delivered
  exact delivered

def AcceptCall (event : Event backend) : Prop :=
  ∃ d completions, event = .poll d completions

/-- The connection error comes last in every run whose connection is lost only
while nothing waits to be delivered.  At a loss in any other state there are
accept calls that return the error in place of a complete stream. -/
theorem errorLast_losesNothing {last : State backend} {events : List (Event backend)}
    (ran : run (step session) start events = some last) :
    (EachStep (step session) (State.LosesNothing session) start events →
      Always (step session) (State.ErrorLast session) start events) ∧
    (AlwaysOnward (step session) AcceptCall (State.ErrorLast session) start events →
      EachStep (step session) (State.LosesNothing session) start events) := by
  have exact_condition : EachStep (step session) (State.LosesNothing session) start events ↔
      AlwaysOnward (step session) AcceptCall (State.ErrorLast session) start events := by
    refine eachStep_iff_alwaysOnward step_settled State.Settled.errorLast ?_ ?_ start_settled ran
    · intro state event call error lose
      obtain ⟨d, completions, rfl⟩ := call
      cases lose
    · intro state event next settled stepped unmet
      simp only [State.LosesNothing, not_forall, not_not] at unmet
      obtain ⟨error, rfl, d, id, deliverable⟩ := unmet
      obtain ⟨_, rfl⟩ := step_lose_cases stepped
      obtain ⟨last, ran, lacks⟩ := @overtakes _ _ _ _ error _ deliverable
      refine ⟨[.poll d []], last, ?_, ran, lacks⟩
      intro call member
      exact ⟨d, [], List.mem_singleton.mp member⟩
  exact ⟨fun met => (exact_condition.mp met).always, exact_condition.mpr⟩

/-- One stream with its whole header arrives before the connection is lost. -/
def overtakenStream : List (Event .quinn) :=
  [.network .uni .arrive, .network .uni (.receive 0 [0x40, 0x54, 0x00, 0x68, 0x69]),
    .lose .locallyClosed, .poll .uni []]

theorem errorLast_overtaken :
    ∃ s, run (step (VarInt.fromU32 0)) start overtakenStream = some s ∧
      (s.side .uni).polled = some (.failed (.connectionError .locallyClosed)) ∧
      (s.side .uni).pending = [0] ∧ ¬ s.ErrorLast (VarInt.fromU32 0) := by
  have reached : (run (step (VarInt.fromU32 0)) start overtakenStream).map
      (fun s => ((s.side .uni).polled, (s.side .uni).queue, (s.side .uni).pending, (s.side .uni).delivered,
        (s.side .uni).streams)) =
      some (some (.failed (.connectionError .locallyClosed)), [], [0], [],
        [⟨[0x40, 0x54, 0x00, 0x68, 0x69], ⟨[[0x40, 0x54, 0x00, 0x68, 0x69]], .waiting⟩⟩]) := by
    decide +kernel
  obtain ⟨s, ran, final⟩ := Option.map_eq_some_iff.mp reached
  simp only [Prod.mk.injEq] at final
  obtain ⟨failed, emptied, pending, nothing, streams⟩ := final
  refine ⟨s, ran, failed, pending, fun errorLast => ?_⟩
  have isHeader : Direction.uni.Header (VarInt.fromU32 0) [0x40, 0x54, 0x00] := Direction.header_encode
  have delivered := errorLast .uni _ failed .uni 0 _ (by rw [streams]; rfl)
    (by rw [emptied]; exact List.not_mem_nil)
    ⟨Incoming.not_wasReset_of_waiting rfl, [0x40, 0x54, 0x00], [0x68, 0x69], isHeader, rfl⟩
  rw [nothing] at delivered
  cases delivered

/-- The same stream, served before the connection is lost. -/
def servedStream : List (Event .quinn) :=
  [.network .uni .arrive, .network .uni (.receive 0 [0x40, 0x54, 0x00, 0x68, 0x69]), .poll .uni [0],
    .lose .locallyClosed, .poll .uni []]

theorem errorLast_served :
    Always (step (VarInt.fromU32 0)) (State.ErrorLast (VarInt.fromU32 0)) start servedStream := by
  have ran : (run (step (VarInt.fromU32 0)) start servedStream).isSome = true := by decide +kernel
  refine (errorLast_losesNothing (Option.some_get ran).symm).1 ?_
  intro front event back state split reached error lose d id deliverable
  subst lose
  obtain rfl : front = servedStream.take 3 := by
    rcases front with _ | ⟨_, _ | ⟨_, _ | ⟨_, _ | ⟨_, _ | ⟨_, front⟩⟩⟩⟩⟩ <;>
      simp_all [servedStream]
  have served : (run (step (VarInt.fromU32 0)) start (servedStream.take 3)).map
      (fun s => (s.uni.streams.length, s.uni.delivered, s.bi.streams.length)) = some (1, [0], 0) := by
    decide +kernel
  rw [reached, Option.map_some] at served
  simp only [Option.some.injEq, Prod.mk.injEq] at served
  obtain ⟨one, delivered, none⟩ := served
  obtain ⟨stream, found, _, outside⟩ := deliverable
  have known := (List.getElem?_eq_some_iff.mp found).1
  cases d with
  | uni =>
      have first : id = 0 := by
        rw [State.side, one] at known
        omega
      rw [State.side, delivered, first] at outside
      exact outside List.mem_cons_self
  | bi =>
      rw [State.side, none] at known
      exact Nat.not_lt_zero _ known

end Webtrans.Session.Accept
