import Mathlib.Algebra.Order.BigOperators.Group.Finset
import Webtrans.Session.OpeningAgreement

namespace Webtrans.Session.Opening

open Webtrans.Data Webtrans.Proto Webtrans.Session.Accept

/-! While the connection lasts, what was opened arrives. -/

variable {backend : Backend} {url : UrlCrate} {opener : Established url} {session : VarInt} {negotiated : Bool}
  {s t : State backend} {event : Event backend}

/-- Steps that the transport may still take on one stream. -/
def Channel.work (channel : Channel backend) : Option Incoming → Nat
  | none => channel.carried + 2
  | some incoming =>
      channel.carried - incoming.arrived.length + if incoming.recv.ending = .waiting then 1 else 0

def streamWork (s : State backend) (d : Direction) (id : Nat) : Nat :=
  match (s.channels d)[id]? with
  | none => 0
  | some channel => channel.work (s.incoming d id)

def work (s : State backend) : Nat :=
  (∑ id ∈ Finset.range (s.channels .uni).length, streamWork s .uni id) +
    ∑ id ∈ Finset.range (s.channels .bi).length, streamWork s .bi id

theorem work_lt_of_stream {d : Direction} {id : Nat} (counts : ∀ d, (t.channels d).length = (s.channels d).length)
    (elsewhere : ∀ other at_, other ≠ d ∨ at_ ≠ id → streamWork t other at_ ≤ streamWork s other at_)
    (less : streamWork t d id < streamWork s d id) : work t < work s := by
  have inside : id < (s.channels d).length := by
    by_contra beyond
    rw [streamWork, streamWork, List.getElem?_eq_none (Nat.le_of_not_lt beyond)] at less
    exact Nat.not_lt_zero _ less
  have le : ∀ other, ∑ at_ ∈ Finset.range (s.channels other).length, streamWork t other at_ ≤
      ∑ at_ ∈ Finset.range (s.channels other).length, streamWork s other at_ := by
    intro other
    refine Finset.sum_le_sum fun at_ _ => ?_
    by_cases same : other = d ∧ at_ = id
    · obtain ⟨rfl, rfl⟩ := same
      exact Nat.le_of_lt less
    · exact elsewhere other at_ (not_and_or.mp same)
  have lt : ∑ at_ ∈ Finset.range (s.channels d).length, streamWork t d at_ <
      ∑ at_ ∈ Finset.range (s.channels d).length, streamWork s d at_ := by
    refine Finset.sum_lt_sum (fun at_ _ => ?_) ⟨id, Finset.mem_range.mpr inside, less⟩
    by_cases same : at_ = id
    · rw [same]
      exact Nat.le_of_lt less
    · exact elsewhere d at_ (.inr same)
  rw [work, work, counts .uni, counts .bi]
  cases d with
  | uni => exact Nat.add_lt_add_of_lt_of_le lt (le .bi)
  | bi => exact Nat.add_lt_add_of_le_of_lt (le .uni) lt

theorem Channel.Valid.carried_le {channel : Channel backend} {header : List UInt8} {reliable : Option Nat}
    (valid : channel.Valid header reliable) : channel.carried ≤ channel.written.length := by
  rw [Channel.carried]
  cases limited : channel.limit with
  | none => exact Nat.le_refl _
  | some limit => exact (valid.limit limited).1

theorem Channel.work_brings {channel : Channel backend} {header : List UInt8} {reliable : Option Nat}
    {incoming : Incoming} {id : Nat} {happening : NetworkEvent} {side after : Side backend}
    (valid : channel.Valid header reliable) (found : side.streams[id]? = some incoming)
    (brought : channel.Brings id incoming happening) (happened : side.network happening = some after) :
    ∃ effect, after = { side with streams := side.streams.modify id effect } ∧
      channel.work (some (effect incoming)) < channel.work (some incoming) := by
  have changes : ∀ {effect : Incoming → Incoming}, side.change id effect = some after →
      (incoming.recv.ending = .waiting → channel.work (some (effect incoming)) < channel.work (some incoming)) →
      ∃ effect, after = { side with streams := side.streams.modify id effect } ∧
        channel.work (some (effect incoming)) < channel.work (some incoming) := by
    intro effect changed less
    obtain ⟨stream, known, isOpen, result⟩ := Side.change_cases changed
    rw [found] at known
    cases known
    exact ⟨effect, result, less isOpen⟩
  cases brought with
  | @bytes count positive fits =>
      refine changes happened fun isOpen => ?_
      have enough := valid.carried_le
      have still : (incoming.receive ((channel.written.drop incoming.arrived.length).take count)).recv.ending =
          .waiting := isOpen
      rw [Channel.work, Channel.work, still, isOpen, Incoming.receive, List.length_append, List.length_take,
        List.length_drop]
      omega
  | finish _ _ =>
      refine changes happened fun isOpen => ?_
      simp [Channel.work, Incoming.finish, isOpen]
  | reset _ _ _ =>
      refine changes happened fun isOpen => ?_
      simp [Channel.work, Incoming.reset, isOpen]

/-- Every step of the transport leaves it less to do. -/
theorem Agrees.work_lt (agrees : Agrees opener session negotiated s) (transported : Transports session s t) :
    work t < work s := by
  cases transported with
  | @discards d id channel reset found isReset less =>
      have inside := (List.getElem?_eq_some_iff.mp found).1
      refine @work_lt_of_stream _ _ _ d id (fun other => ?_) (fun other at_ differs => Nat.le_of_eq ?_) ?_
      · by_cases same : other = d
        · subst same
          simp
        · simp [same]
      · by_cases same : other = d
        · subst same
          have apart : id ≠ at_ := fun back => differs.elim (fun never => never rfl) (fun never => never back.symm)
          simp only [streamWork, Function.update_self, List.getElem?_set_ne apart]
          rfl
        · simp only [streamWork, Function.update_of_ne same]
          rfl
      · simp only [streamWork, Function.update_self, List.getElem?_set_self inside, found]
        change Channel.work _ (s.incoming d id) < _
        cases arrived : s.incoming d id with
        | none =>
            rw [Channel.work, Channel.work]
            exact Nat.add_lt_add_right less 2
        | some incoming =>
            rw [arrivedLength_eq arrived] at less ⊢
            simp only [Channel.work]
            rw [show Channel.carried { channel with
              limit := some (max incoming.arrived.length reset.reliableSize) } =
                max incoming.arrived.length reset.reliableSize from rfl]
            omega
  | @arrives d accept announced stepped =>
      obtain ⟨_, side, happened, rfl⟩ := step_network_cases stepped
      cases happened
      have found := List.getElem?_eq_getElem (room_of_announced announced)
      have unmet : s.incoming d (s.accept.side d).streams.length = none := List.getElem?_eq_none (Nat.le_refl _)
      refine @work_lt_of_stream _ _ _ d (s.accept.side d).streams.length (fun _ => rfl)
        (fun other at_ differs => Nat.le_of_eq ?_) ?_
      · rw [streamWork, streamWork, incoming_arrive, if_neg (not_and_or.mpr differs)]
      · rw [streamWork, streamWork, incoming_arrive, if_pos ⟨rfl, rfl⟩, unmet]
        simp only [found, Channel.work, Incoming.opened]
        simp
  | @brings d id channel incoming happening accept found arrived brought stepped =>
      obtain ⟨_, side, happened, rfl⟩ := step_network_cases stepped
      obtain ⟨effect, rfl, less⟩ := Channel.work_brings (agrees.valid found) arrived brought happened
      refine @work_lt_of_stream _ _ _ d id (fun _ => rfl) (fun other at_ differs => Nat.le_of_eq ?_) ?_
      · rw [streamWork, streamWork, incoming_modify, if_neg (not_and_or.mpr differs)]
      · rw [streamWork, streamWork, incoming_modify, if_pos ⟨rfl, rfl⟩, arrived]
        simp only [found]
        exact less

def Idle (opener : Established url) (session : VarInt) (negotiated : Bool) (s : State backend) : Prop :=
  ∀ event : Event backend, event.Carries → step opener session negotiated s event = none

/-- The transport always comes to an end. -/
theorem exists_idle (agrees : Agrees opener session negotiated s) :
    ∃ last, Reaches (step opener session negotiated) Event.Carries s last ∧
      Agrees opener session negotiated last ∧
      Idle opener session negotiated last := by
  refine reaches_of_progress (fun agrees stepped carries => agrees.transports (transports_of_step stepped carries))
    (fun agrees stepped carries => agrees.work_lt (transports_of_step stepped carries)) ?_ agrees
  intro state _
  by_cases idle : Idle opener session negotiated state
  · exact .inl idle
  · simp only [Idle, not_forall] at idle
    obtain ⟨event, carries, enabled⟩ := idle
    obtain ⟨next, stepped⟩ := Option.ne_none_iff_exists'.mp enabled
    exact .inr ⟨event, next, carries, stepped⟩

section Idle

variable {d : Direction} {id : Nat} {channel : Channel backend} {incoming : Incoming}

theorem Idle.met (idle : Idle opener session negotiated s) (isOpen : s.accept.lost = none)
    (found : (s.channels d)[id]? = some channel) (announced : channel.announced = true) :
    ∃ incoming, s.incoming d id = some incoming := by
  apply Option.ne_none_iff_exists'.mp
  intro unmet
  have beyond := List.getElem?_eq_none_iff.mp unmet
  have waits : ((s.channels d).drop (s.accept.side d).streams.length).any Channel.announced = true := by
    refine List.any_eq_true.mpr ⟨channel, List.mem_iff_getElem?.mpr ⟨id - (s.accept.side d).streams.length, ?_⟩,
      announced⟩
    rw [List.getElem?_drop, Nat.add_sub_cancel' beyond, found]
  have stuck := idle (.arrive d) trivial
  rw [step, if_pos waits, State.accepting, Accept.step, isOpen] at stuck
  cases stuck

theorem Idle.carried (idle : Idle opener session negotiated s) (isOpen : s.accept.lost = none)
    (found : (s.channels d)[id]? = some channel) (arrived : s.incoming d id = some incoming)
    (waiting : incoming.recv.ending = .waiting) : channel.carried ≤ incoming.arrived.length := by
  by_contra less
  have stuck := idle (.receive d id 1) trivial
  have known : (s.accept.side d).streams[id]? = some incoming := arrived
  simp only [step, State.bring, found, arrived, Channel.receive] at stuck
  rw [if_pos ⟨Nat.one_pos, by omega⟩, Option.bind_some, State.accepting, Accept.step, isOpen] at stuck
  simp [Side.network, Side.change, known, waiting] at stuck

theorem Idle.unfinished (idle : Idle opener session negotiated s) (isOpen : s.accept.lost = none)
    (found : (s.channels d)[id]? = some channel) (arrived : s.incoming d id = some incoming)
    (waiting : incoming.recv.ending = .waiting) (all : incoming.arrived.length = channel.written.length) :
    channel.finished = false := by
  by_contra finished
  have stuck := idle (.receiveEnd d id) trivial
  have known : (s.accept.side d).streams[id]? = some incoming := arrived
  simp only [step, State.bring, found, arrived, Channel.receiveEnd] at stuck
  rw [if_pos ⟨by simpa using finished, all⟩, Option.bind_some, State.accepting, Accept.step, isOpen] at stuck
  simp [Side.network, Side.change, known, waiting] at stuck

/-- All of a stream that has not been reset has arrived. -/
theorem Idle.whole (idle : Idle opener session negotiated s) (agrees : Agrees opener session negotiated s)
    (isOpen : s.accept.lost = none) (found : (s.channels d)[id]? = some channel)
    (arrived : s.incoming d id = some incoming) (unreset : channel.reset = none) :
    ¬ incoming.WasReset ∧ incoming.arrived = channel.written ∧
      (channel.finished = true → incoming.recv.ending = .finished) := by
  have linked := agrees.linked found arrived
  have kept : ¬ incoming.WasReset := by
    intro wasReset
    obtain ⟨reset, isReset, _⟩ := linked.reset wasReset
    rw [unreset] at isReset
    cases isReset
  have carried := (agrees.valid found).carried_eq unreset
  cases ending : incoming.recv.ending with
  | failed error => exact absurd ⟨error, ending⟩ kept
  | finished => exact ⟨kept, linked.arrived.eq_of_length (linked.ended ending).2, fun _ => rfl⟩
  | waiting =>
      have enough := idle.carried isOpen found arrived ending
      rw [carried] at enough
      have whole := linked.arrived.eq_of_length (Nat.le_antisymm linked.arrived.length_le enough)
      refine ⟨kept, whole, fun finished => ?_⟩
      rw [idle.unfinished isOpen found arrived ending (congrArg List.length whole)] at finished
      cases finished

/-- The header of every stream that `open_*` has returned has arrived, unless a
reset has overtaken it. -/
theorem Idle.complete (idle : Idle opener session negotiated s) (agrees : Agrees opener session negotiated s)
    (isHeader : d.Header session (opener.header d)) (isOpen : s.accept.lost = none)
    (found : (s.channels d)[id]? = some channel) (returned : channel.call = .returned)
    (kept : channel.reset = none ∨
      reliablePrefix backend (opener.header d).length negotiated = some (opener.header d).length) :
    ∃ incoming, s.incoming d id = some incoming ∧
      (id ∈ (s.accept.side d).delivered ∨ incoming.Complete d session) := by
  have valid := agrees.valid found
  have written := valid.returned returned
  have nonempty := List.length_pos_of_ne_nil isHeader.ne_nil
  have announced : channel.announced = true := by
    rw [Channel.announced, written]
    have some_ : opener.header d ++ channel.app ≠ [] := List.append_ne_nil_of_left_ne_nil isHeader.ne_nil _
    simp [some_]
  obtain ⟨incoming, arrived⟩ := idle.met isOpen found announced
  refine ⟨incoming, arrived, ?_⟩
  have linked := agrees.linked found arrived
  have complete : ¬ incoming.WasReset → (opener.header d).length ≤ incoming.arrived.length →
      incoming.Complete d session := by
    intro unreset enough
    have front : opener.header d <+: channel.written := written ▸ List.prefix_append _ _
    obtain ⟨rest, split⟩ := List.prefix_of_prefix_length_le front linked.arrived enough
    exact ⟨unreset, _, rest, isHeader, split.symm⟩
  have lengths := congrArg List.length written
  rw [List.length_append] at lengths
  rcases kept with unreset | reliable
  · obtain ⟨unreset, whole, _⟩ := idle.whole agrees isOpen found arrived unreset
    refine .inr (complete unreset ?_)
    rw [whole]
    omega
  · cases ending : incoming.recv.ending with
    | waiting =>
        refine .inr (complete (Incoming.not_wasReset_of_waiting ending) ?_)
        refine Nat.le_trans ?_ (idle.carried isOpen found arrived ending)
        rw [Channel.carried]
        cases limited : channel.limit with
        | none =>
            rw [Option.getD_none]
            omega
        | some limit =>
            obtain ⟨_, reset, isReset, reached⟩ := valid.limit limited
            have size := (valid.reset isReset).1
            rw [reliable, Option.getD_some] at size
            rw [Option.getD_some]
            omega
    | finished =>
        have whole := (linked.ended ending).2
        refine .inr (complete (fun wasReset => ?_) (by omega))
        obtain ⟨error, failed⟩ := wasReset
        rw [ending] at failed
        cases failed
    | failed error =>
        left
        by_contra missing
        obtain ⟨reset, isReset, size⟩ := linked.reset ⟨error, ending⟩
        have same := (valid.reset isReset).1
        rw [reliable, Option.getD_some, size missing] at same
        omega

end Idle

theorem run_polls (s : State backend) (d : Direction) (polls : List (List Nat)) :
    run (step opener session negotiated) s (polls.map (.poll d)) =
      (run (Accept.step session) s.accept (polls.map (.poll d))).map fun accept => { s with accept } := by
  induction polls generalizing s with
  | nil => rfl
  | cons completions polls ih =>
      simp only [List.map_cons, run, step, State.accepting]
      cases Accept.step session s.accept (.poll d completions) with
      | none => rfl
      | some accept =>
          simp only [Option.map_some]
          exact ih _

theorem polls_arrivals {accept after : Accept.State backend} {d : Direction} {polls : List (List Nat)}
    (ran : run (Accept.step session) accept (polls.map (.poll d)) = some after) :
    (after.side d).streams.map Incoming.arrival = (accept.side d).streams.map Incoming.arrival := by
  induction polls generalizing accept with
  | nil =>
      cases ran
      rfl
  | cons completions polls ih =>
      obtain ⟨next, stepped, ran⟩ := run_cons_eq_some ran
      obtain ⟨polled, _, _⟩ := step_poll_cases stepped
      exact (ih ran).trans (Side.poll_arrivals polled)

theorem exists_polls {accept : Accept.State backend} (valid : accept.Valid session) (isOpen : accept.lost = none)
    (d : Direction) (count : Nat) :
    ∃ (polls : List (List Nat)) (after : Accept.State backend), polls.length = count ∧
      run (Accept.step session) accept (polls.map (.poll d)) = some after := by
  induction count generalizing accept with
  | zero => exact ⟨[], accept, rfl, rfl⟩
  | succ count ih =>
      obtain ⟨completions, next, stepped⟩ := exists_poll valid d isOpen
      obtain ⟨_, lost, _⟩ := step_poll_cases stepped
      obtain ⟨polls, after, length, ran⟩ := ih (step_valid valid stepped) (lost.trans isOpen)
      exact ⟨completions :: polls, after, by rw [List.length_cons, length], (run_cons_some stepped).trans ran⟩

theorem Idle.delivers (idle : Idle opener session negotiated s) (agrees : Agrees opener session negotiated s)
    {d : Direction} (isHeader : d.Header session (opener.header d)) (isOpen : s.accept.lost = none)
    {polls : List (List Nat)} (enough : (s.channels d).length < polls.length) {accept : Accept.State backend}
    (ran : run (Accept.step session) s.accept (polls.map (.poll d)) = some accept) {id : Nat}
    {channel : Channel backend} (found : (s.channels d)[id]? = some channel) (returned : channel.call = .returned)
    (kept : channel.reset = none ∨
      reliablePrefix backend (opener.header d).length negotiated = some (opener.header d).length) :
    id ∈ (accept.side d).delivered := by
  obtain ⟨incoming, arrived, isGiven | complete⟩ := idle.complete agrees isHeader isOpen found returned kept
  · exact run_delivered isGiven ran
  · have counts := agrees.count d
    exact polls_deliver agrees.accept isOpen (by omega) ran arrived complete

theorem Agrees.bounded (agrees : Agrees opener session negotiated s) {events : List (Event backend)}
    (carries : ∀ event ∈ events, Event.Carries event)
    (ran : run (step opener session negotiated) s events = some t) : events.length + work t ≤ work s := by
  refine @run_measure _ _ (step opener session negotiated) (Agrees opener session negotiated) Event.Carries work
    ?_ ?_ _ _ _ agrees carries ran
  · intro state event next agrees stepped carries
    exact agrees.transports (transports_of_step stepped carries)
  · intro state event next agrees stepped carries
    exact agrees.work_lt (transports_of_step stepped carries)

/-- The transport comes to rest within a bound.  When it has, polls give the
application every stream that was opened and not reset, with all that was
written on it. -/
theorem streams_arrive {sessionId : VarInt} {target : url.Url} {events : List (Event backend)}
    (ran : run (step (.new sessionId target) sessionId negotiated) start events = some s)
    (isOpen : s.accept.lost = none) :
    (∀ carried t, (∀ event ∈ carried, Event.Carries event) →
      run (step (.new sessionId target) sessionId negotiated) s carried = some t → carried.length ≤ work s) ∧
    (Idle (.new sessionId target) sessionId negotiated s → ∀ (d : Direction) (polls : List (List Nat)) t,
      (s.channels d).length < polls.length →
      run (step (.new sessionId target) sessionId negotiated) s (polls.map (.poll d)) = some t →
      ∀ id channel, (s.channels d)[id]? = some channel → channel.call = .returned → channel.reset = none →
        id ∈ (t.accept.side d).delivered ∧ ∃ incoming, t.incoming d id = some incoming ∧
          incoming.recv.bytes = channel.app ∧ (channel.finished = true → incoming.recv.ending = .finished)) := by
  have agrees := agrees_of_run ran
  constructor
  · intro carried t carries ran
    exact (Nat.le_add_right _ _).trans (agrees.bounded carries ran)
  · intro idle d polls t enough polled id channel found returned unreset
    have isHeader := header_new sessionId target d
    have after := agrees_run (header_new sessionId target) agrees polled
    rw [run_polls] at polled
    obtain ⟨accept, ran, rfl⟩ := Option.map_eq_some_iff.mp polled
    have isGiven := idle.delivers agrees isHeader isOpen enough ran found returned (.inl unreset)
    have arrived := List.getElem?_eq_getElem ((after.accept d).known id (Side.delivered_tracked isGiven))
    obtain ⟨before, known, same⟩ := Side.arrival_found (polls_arrivals ran).symm arrived
    obtain ⟨kept, whole, ends⟩ := idle.whole agrees isOpen found known unreset
    obtain ⟨bytes, ending⟩ := Prod.mk.inj same
    obtain ⟨header, rest, foundHeader, split, unread⟩ := (after.accept d).headerRead arrived isGiven
    have written := whole.symm.trans (bytes.trans split)
    rw [(agrees.valid found).returned returned] at written
    obtain rfl := header_unique isHeader foundHeader written
    refine ⟨isGiven, _, arrived, ?_, fun finished => ending.symm.trans (ends finished)⟩
    rw [unread fun wasReset => kept ((Incoming.WasReset.congr same).mpr wasReset)]
    exact (List.append_cancel_left written).symm

/-- A bidirectional stream with two bytes on it. -/
def oneStream : List (Event .quinn) :=
  [.openStream .bi, .writeHeader .bi 0 3, .write .bi 0 [0x68, 0x69], .finish .bi 0, .arrive .bi,
    .receive .bi 0 4, .receive .bi 0 1, .receiveEnd .bi 0]

theorem streams_arrive_oneStream :
    ∃ t : State .quinn, 0 ∈ (t.accept.side .bi).delivered ∧ ∃ incoming, t.incoming .bi 0 = some incoming ∧
      incoming.recv.bytes = [0x68, 0x69] ∧ incoming.recv.ending = .finished := by
  have reached : (run (step (.new (VarInt.fromU32 4) () : Established ConnectRequest.roomUrls.toUrlCrate)
      (VarInt.fromU32 4) false) start oneStream).map (fun s => (s.accept.lost, work s, (s.channels .bi).length,
        (s.channels .bi)[0]?.map (fun channel => decide (channel.call = .returned ∧ channel.reset = none ∧
          channel.app = [0x68, 0x69] ∧ channel.finished = true)),
        (run (step (.new (VarInt.fromU32 4) () : Established ConnectRequest.roomUrls.toUrlCrate)
          (VarInt.fromU32 4) false) s ([[0], []].map (.poll .bi))).isSome)) =
      some (none, 0, 1, some true, true) := by decide +kernel
  obtain ⟨s, ran, seen⟩ := Option.map_eq_some_iff.mp reached
  simp only [Prod.mk.injEq, Option.map_eq_some_iff, Option.isSome_iff_exists, decide_eq_true_eq] at seen
  obtain ⟨isOpen, rested, count, ⟨channel, found, returned, unreset, app, finished⟩, t, polled⟩ := seen
  obtain ⟨bounded, delivers⟩ := streams_arrive ran isOpen
  have idle : Idle (.new (VarInt.fromU32 4) () : Established ConnectRequest.roomUrls.toUrlCrate)
      (VarInt.fromU32 4) false s := by
    intro event carries
    by_contra enabled
    obtain ⟨next, stepped⟩ := Option.ne_none_iff_exists'.mp enabled
    have short := bounded [event] next (List.forall_mem_singleton.mpr carries)
      ((run_cons_some stepped).trans (by rw [run]))
    rw [rested] at short
    exact Nat.not_succ_le_zero 0 short
  have enough : (s.channels .bi).length < [[0], ([] : List Nat)].length := by rw [count]; decide
  obtain ⟨isGiven, incoming, arrived, bytes, ends⟩ :=
    delivers idle .bi _ t enough polled 0 channel found returned unreset
  exact ⟨t, isGiven, incoming, arrived, bytes.trans app, ends finished⟩

/-- What happens without a word from the writing application. -/
def Event.Undriven : Event backend → Prop
  | .poll .. => True
  | event => event.Carries

theorem Event.undriven_of_carries {event : Event backend} (carries : event.Carries) : event.Undriven := by
  cases event with
  | poll d completions => trivial
  | _ => exact carries

theorem transports_keep {events : List (Event backend)} (carries : ∀ event ∈ events, Event.Carries event)
    (ran : run (step opener session negotiated) s events = some t) (isOpen : s.accept.lost = none) {d : Direction}
    {id : Nat} {channel : Channel backend} (found : (s.channels d)[id]? = some channel)
    (returned : channel.call = .returned) :
    t.accept.lost = none ∧ ∃ channel : Channel backend, (t.channels d)[id]? = some channel ∧
      channel.call = .returned := by
  refine @run_following _ _ (step opener session negotiated) (fun state : State backend => state.accept.lost = none ∧
    ∃ channel : Channel backend, (state.channels d)[id]? = some channel ∧ channel.call = .returned) Event.Carries
    ?_ _ _ _ ⟨isOpen, channel, found, returned⟩ carries ran
  intro state event next kept stepped carries
  obtain ⟨isOpen, channel, found, returned⟩ := kept
  cases transports_of_step stepped carries with
  | @discards other at_ before reset known isReset less =>
      refine ⟨isOpen, ?_⟩
      by_cases same : d = other
      · subst same
        dsimp only
        rw [Function.update_self]
        by_cases here : id = at_
        · subst here
          rw [found] at known
          cases known
          exact ⟨_, List.getElem?_set_self (List.getElem?_eq_some_iff.mp found).1, returned⟩
        · exact ⟨channel, (List.getElem?_set_ne fun back => here back.symm).trans found, returned⟩
      · dsimp only
        rw [Function.update_of_ne same]
        exact ⟨channel, found, returned⟩
  | arrives _ accepted =>
      obtain ⟨_, side, _, rfl⟩ := step_network_cases accepted
      exact ⟨(Accept.State.lost_setSide _ _ _).trans isOpen, channel, found, returned⟩
  | brings _ _ _ accepted =>
      obtain ⟨_, side, _, rfl⟩ := step_network_cases accepted
      exact ⟨(Accept.State.lost_setSide _ _ _).trans isOpen, channel, found, returned⟩

theorem Moves.lostBefore {d : Direction} {id : Nat} (agrees : Agrees opener session negotiated s)
    (moves : Moves opener session negotiated s t) (gone : (s.accept.side d).LostBefore id) :
    (t.accept.side d).LostBefore id := by
  have accepts : ∀ {event accept}, Accept.step session s.accept event = some accept →
      (accept.side d).LostBefore id := by
    intro event accept stepped
    have ran : run (Accept.step session) s.accept [event] = some accept := by
      rw [run_cons_some stepped, run]
    exact run_lostBefore agrees.accept gone ran
  cases moves with
  | opened d => exact gone
  | writes _ _ => exact gone
  | reads _ _ _ _ => exact gone
  | transports transported =>
      cases transported with
      | discards _ _ _ => exact gone
      | arrives _ stepped => exact accepts stepped
      | brings _ _ _ stepped => exact accepts stepped
  | lost stepped => exact accepts stepped
  | polled stepped => exact accepts stepped

/-- A reset that overtakes the header. -/
theorem exists_lost (sessionId : VarInt) (target : url.Url)
    (plain : reliablePrefix backend ((Established.new sessionId target).header .uni).length negotiated = none) :
    ∃ (events : List (Event backend)) (s : State backend) (channel : Channel backend),
      run (step (.new sessionId target) sessionId negotiated) start events = some s ∧ s.accept.lost = none ∧
        (s.channels .uni)[0]? = some channel ∧ channel.call = .returned ∧ (s.accept.side .uni).LostBefore 0 := by
  have nonempty := (header_new sessionId target .uni).ne_nil
  generalize same : (Established.new sessionId target).header .uni = header at plain nonempty
  refine ⟨[.openStream .uni, .writeHeader .uni 0 header.length, .reset .uni 0 0, .arrive .uni,
    .receiveReset .uni 0 .earlyEof], ?_⟩
  obtain ⟨byte, rest, rfl⟩ := List.exists_cons_of_ne_nil nonempty
  rw [List.length_cons] at plain
  simp [run, step, start, same, plain, State.change, Channel.opened, Call.go, Channel.writeHeader, Channel.abort,
    Channel.announced, State.accepting, Accept.step, Accept.start, Accept.State.side, Accept.State.setSide,
    Side.network, State.bring, State.incoming, Channel.receiveReset, Incoming.opened, Side.change, Incoming.reset,
    Side.LostBefore, Incoming.WasReset]

/-- A stream that `open_*` has returned can still reach the peer's application,
whatever has happened to it, exactly when resets are reliable. -/
theorem opened_reaches_iff (sessionId : VarInt) (target : url.Url) (negotiated : Bool) :
    (∀ (events : List (Event backend)) s,
      run (step (.new sessionId target) sessionId negotiated) start events = some s → s.accept.lost = none →
      ∀ d id channel, (s.channels d)[id]? = some channel → channel.call = .returned →
        ∃ t, Reaches (step (.new sessionId target) sessionId negotiated) Event.Undriven s t ∧
          id ∈ (t.accept.side d).delivered) ↔
    backend = .quion ∧ negotiated = true := by
  constructor
  · intro reaches
    by_contra unreliable
    have plain : ∀ size, reliablePrefix backend size negotiated = none := by
      intro size
      cases backend with
      | quinn => rfl
      | quion =>
          have refused : negotiated = false := by simpa using unreliable
          rw [refused]
          rfl
    obtain ⟨events, s, channel, ran, isOpen, found, returned, gone⟩ :=
      @exists_lost backend url negotiated sessionId target (plain _)
    obtain ⟨t, ⟨later, _, reached⟩, isGiven⟩ := reaches events s ran isOpen .uni 0 channel found returned
    have kept : Agrees (.new sessionId target) sessionId negotiated t ∧ (t.accept.side .uni).LostBefore 0 := by
      refine @run_invariant _ _ (step (.new sessionId target) sessionId negotiated) (fun state : State backend =>
        Agrees (.new sessionId target) sessionId negotiated state ∧ (state.accept.side .uni).LostBefore 0) ?_ _ _ _
        ⟨agrees_of_run ran, gone⟩ reached
      intro state event next kept stepped
      have moves := moves_of_step stepped
      exact ⟨kept.1.moves (header_new sessionId target) moves, moves.lostBefore kept.1 kept.2⟩
    exact kept.2.1 isGiven
  · rintro ⟨rfl, rfl⟩ events s ran isOpen d id channel found returned
    obtain ⟨middle, ⟨carried, carries, reached⟩, agrees, idle⟩ := exists_idle (agrees_of_run ran)
    obtain ⟨stillOpen, other, known, still⟩ := transports_keep carries reached isOpen found returned
    obtain ⟨polls, accept, length, polled⟩ :=
      exists_polls agrees.accept stillOpen d ((middle.channels d).length + 1)
    refine ⟨{ middle with accept }, ⟨carried ++ polls.map (.poll d), fun event member => ?_, ?_⟩, ?_⟩
    · rcases List.mem_append.mp member with carried | polled
      · exact Event.undriven_of_carries (carries event carried)
      · obtain ⟨_, _, rfl⟩ := List.mem_map.mp polled
        trivial
    · rw [run_append, reached, Option.bind_some, run_polls, polled]
      rfl
    · exact idle.delivers agrees (header_new sessionId target d) stillOpen (by omega) polled known still (.inr rfl)

end Webtrans.Session.Opening
