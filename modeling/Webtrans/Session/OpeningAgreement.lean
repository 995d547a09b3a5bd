import Webtrans.Proto.ConnectUrl
import Webtrans.Session.Opening

namespace Webtrans.Session.Opening

open Webtrans.Data Webtrans.Proto Webtrans.Session.Accept

/-! What the accepting end is given is what the opening end has opened. -/

variable {backend : Backend} {d : Direction} {session : VarInt} {header : List UInt8} {reliable : Option Nat}

theorem header_unique {left right leftRest rightRest : List UInt8} (leftHeader : d.Header session left)
    (rightHeader : d.Header session right) (same : left ++ leftRest = right ++ rightRest) : left = right := by
  obtain ⟨typ, id, rfl, typReads, idReads⟩ := leftHeader
  obtain ⟨otherTyp, otherId, rfl, otherTypReads, otherIdReads⟩ := rightHeader
  rw [List.append_assoc, List.append_assoc] at same
  obtain ⟨rfl, behind⟩ := typReads.append_inj otherTypReads same
  obtain ⟨rfl, _⟩ := idReads.append_inj otherIdReads behind
  rfl

/-! ## One stream -/

namespace Channel

/-- What the writer has handed over, by how far `open_*` is. -/
def Follows (header : List UInt8) (channel : Channel backend) : Prop :=
  match channel.call with
  | .returned => channel.written = header ++ channel.app
  | .writing rest =>
      channel.written ++ rest = header ∧ rest ≠ [] ∧ channel.app = [] ∧ channel.finished = false ∧
        channel.reset = none
  | _ =>
      channel.written <+: header ∧ channel.written.length < header.length ∧ channel.app = [] ∧
        channel.reset = none

structure Valid (header : List UInt8) (reliable : Option Nat) (channel : Channel backend) : Prop where
  follows : channel.Follows header
  reset : ∀ {reset}, channel.reset = some reset →
    reset.reliableSize = reliable.getD 0 ∧ ∃ code, reset.code = resetCode code
  limit : ∀ {limit}, channel.limit = some limit →
    limit ≤ channel.written.length ∧ ∃ reset, channel.reset = some reset ∧ reset.reliableSize ≤ limit
  toldFinished : channel.told = some .finished →
    channel.call = .returned ∧ channel.finished = true ∧ channel.taken = channel.app
  toldReset : ∀ {found}, channel.told = some (.reset found) →
    ∃ reset, channel.reset = some reset ∧ found = errorFromHttp3 reset.code.intoInner

/-- The stream as the peer has met it.  `given` says that its application was
given the stream. -/
structure Linked (d : Direction) (session : VarInt) (given : Prop) (channel : Channel backend)
    (incoming : Incoming) : Prop where
  arrived : incoming.arrived <+: channel.written
  within : incoming.arrived.length ≤ channel.carried
  ended : incoming.recv.ending = .finished →
    channel.finished = true ∧ incoming.arrived.length = channel.written.length
  reset : incoming.WasReset → ∃ reset, channel.reset = some reset ∧ (¬ given → reset.reliableSize = 0)
  taken : given → ∃ header, d.Header session header ∧ header ++ channel.taken <+: incoming.arrived

variable {channel next : Channel backend} {incoming : Incoming} {given : Prop} {arrived : Nat}

theorem follows_go {rest : List UInt8} {call : Call backend} (goes : call = .go rest)
    (split : channel.written ++ rest = header) (silent : channel.app = []) (unfinished : channel.finished = false)
    (unreset : channel.reset = none) : Follows header { channel with call } := by
  cases rest with
  | nil =>
      rw [goes]
      change channel.written = header ++ channel.app
      rw [← split, silent]
      simp
  | cons byte rest =>
      rw [goes]
      exact ⟨split, List.cons_ne_nil _ _, silent, unfinished, unreset⟩

theorem valid_opened (header : List UInt8) (reliable : Option Nat) :
    Valid header reliable (opened header : Channel backend) where
  follows := @follows_go _ header { call := .go header } header _ rfl rfl rfl rfl rfl
  reset found := by cases found
  limit found := by cases found
  toldFinished found := by cases found
  toldReset found := by cases found

theorem Valid.limit_none (valid : channel.Valid header reliable) (unreset : channel.reset = none) :
    channel.limit = none := by
  by_contra limited
  obtain ⟨limit, found⟩ := Option.ne_none_iff_exists'.mp limited
  obtain ⟨_, reset, isReset, _⟩ := valid.limit found
  rw [unreset] at isReset
  cases isReset

theorem Valid.carried_eq (valid : channel.Valid header reliable) (unreset : channel.reset = none) :
    channel.carried = channel.written.length := by
  rw [carried, valid.limit_none unreset, Option.getD_none]

theorem Valid.writing (valid : channel.Valid header reliable) {rest : List UInt8}
    (writing : channel.call = .writing rest) :
    channel.written ++ rest = header ∧ rest ≠ [] ∧ channel.app = [] ∧ channel.finished = false ∧
      channel.reset = none := by
  have follows := valid.follows
  rw [Follows, writing] at follows
  exact follows

theorem Valid.returned (valid : channel.Valid header reliable) (returned : channel.call = .returned) :
    channel.written = header ++ channel.app := by
  have follows := valid.follows
  rw [Follows, returned] at follows
  exact follows

/-- Until it has returned `open_*` has not written the whole header, and nobody
has been told anything. -/
theorem Valid.opening (valid : channel.Valid header reliable) (opening : channel.call ≠ .returned) :
    channel.written <+: header ∧ channel.written.length < header.length ∧ channel.app = [] ∧
      channel.reset = none := by
  have follows := valid.follows
  rw [Follows] at follows
  split at follows
  next returned => exact absurd returned opening
  next rest writing =>
    obtain ⟨split, remains, silent, _, unreset⟩ := follows
    refine ⟨⟨rest, split⟩, ?_, silent, unreset⟩
    have positive := List.length_pos_of_ne_nil remains
    rw [← split, List.length_append]
    omega
  next => exact follows

theorem Valid.writes (valid : channel.Valid header reliable) (wrote : channel.Writes reliable next) :
    next.Valid header reliable := by
  cases wrote with
  | @header rest count writing _ _ =>
      obtain ⟨split, _, silent, unfinished, unreset⟩ := valid.writing writing
      refine ⟨?_, valid.reset, ?_, fun told => ?_, valid.toldReset⟩
      · refine @follows_go backend header { channel with written := channel.written ++ rest.take count } _ _ rfl ?_
          silent unfinished unreset
        rw [List.append_assoc, List.take_append_drop, split]
      · intro limit limited
        rw [valid.limit_none unreset] at limited
        cases limited
      · have finished := (valid.toldFinished told).2.1
        rw [unfinished] at finished
        cases finished
  | @abandoned rest call writing ended =>
      obtain ⟨front, short, silent, unreset⟩ := valid.opening (by simp [writing])
      refine ⟨?_, valid.reset, valid.limit, fun told => ?_, valid.toldReset⟩
      · rcases ended with ⟨error, rfl⟩ | rfl <;> exact ⟨front, short, silent, unreset⟩
      · have returned := (valid.toldFinished told).1
        rw [writing] at returned
        cases returned
  | app bytes returned unfinished unreset =>
      have written := valid.returned returned
      refine ⟨?_, valid.reset, ?_, fun told => ?_, valid.toldReset⟩
      · rw [Follows]
        simp only [returned]
        rw [written, List.append_assoc]
      · intro limit limited
        rw [valid.limit_none unreset] at limited
        cases limited
      · have finished := (valid.toldFinished told).2.1
        rw [unfinished] at finished
        cases finished
  | finished returned unreset =>
      refine ⟨?_, valid.reset, valid.limit, fun told => ?_, valid.toldReset⟩
      · rw [Follows]
        simp only [returned]
        exact valid.returned returned
      · exact ⟨returned, rfl, (valid.toldFinished told).2.2⟩
  | reset code returned unreset =>
      refine ⟨?_, ?_, ?_, valid.toldFinished, ?_⟩
      · rw [Follows]
        simp only [returned]
        exact valid.returned returned
      · intro reset isReset
        cases isReset
        exact ⟨rfl, code, rfl⟩
      · intro limit limited
        rw [valid.limit_none unreset] at limited
        cases limited
      · intro found told
        obtain ⟨reset, isReset, _⟩ := valid.toldReset told
        rw [unreset] at isReset
        cases isReset

theorem Valid.discards (valid : channel.Valid header reliable) {reset : Reset} (isReset : channel.reset = some reset)
    (less : max arrived reset.reliableSize < channel.carried) :
    Valid header reliable { channel with limit := some (max arrived reset.reliableSize) } := by
  refine ⟨valid.follows, valid.reset, ?_, valid.toldFinished, valid.toldReset⟩
  intro limit limited
  cases limited
  refine ⟨?_, reset, isReset, Nat.le_max_right _ _⟩
  have carried : channel.carried ≤ channel.written.length := by
    rw [Channel.carried]
    cases limited : channel.limit with
    | none => exact Nat.le_refl _
    | some limit => exact (valid.limit limited).1
  exact Nat.le_of_lt (Nat.lt_of_lt_of_le less carried)

theorem taken_of_writes (wrote : channel.Writes reliable next) :
    next.taken = channel.taken ∧ next.told = channel.told := by
  cases wrote <;> exact ⟨rfl, rfl⟩

/-- What the peer has met of a stream stays right while its writer goes on. -/
theorem Linked.writes (linked : channel.Linked d session given incoming) (valid : channel.Valid header reliable)
    (wrote : channel.Writes reliable next) : next.Linked d session given incoming := by
  have noReset : channel.reset = none → ¬ incoming.WasReset := by
    intro unreset wasReset
    obtain ⟨reset, isReset, _⟩ := linked.reset wasReset
    rw [unreset] at isReset
    cases isReset
  have extends_ : ∀ {more : List UInt8}, channel.reset = none →
      incoming.arrived <+: channel.written ++ more ∧
        incoming.arrived.length ≤ channel.limit.getD (channel.written ++ more).length := by
    intro more unreset
    have within := linked.within
    rw [valid.carried_eq unreset] at within
    refine ⟨linked.arrived.trans (List.prefix_append _ _), ?_⟩
    rw [valid.limit_none unreset, Option.getD_none, List.length_append]
    omega
  cases wrote with
  | header writing _ _ =>
      obtain ⟨_, _, _, unfinished, unreset⟩ := valid.writing writing
      refine ⟨(extends_ unreset).1, (extends_ unreset).2, fun ends => ?_, linked.reset, linked.taken⟩
      have finished := (linked.ended ends).1
      rw [unfinished] at finished
      cases finished
  | abandoned writing _ =>
      exact ⟨linked.arrived, linked.within, fun ends => ⟨rfl, (linked.ended ends).2⟩, linked.reset,
        linked.taken⟩
  | app bytes returned unfinished unreset =>
      refine ⟨(extends_ unreset).1, (extends_ unreset).2, fun ends => ?_, linked.reset, linked.taken⟩
      have finished := (linked.ended ends).1
      rw [unfinished] at finished
      cases finished
  | finished returned unreset =>
      exact ⟨linked.arrived, linked.within, fun ends => ⟨rfl, (linked.ended ends).2⟩, linked.reset,
        linked.taken⟩
  | reset code returned unreset =>
      exact ⟨linked.arrived, linked.within, linked.ended, fun wasReset => absurd wasReset (noReset unreset),
        linked.taken⟩

/-- A stream that the peer's application was given is one that `open_*` has
returned, and the application finds there what was written on it. -/
theorem Valid.content (valid : channel.Valid header reliable) (isHeader : d.Header session header)
    (linked : channel.Linked d session given incoming) (read : incoming.HeaderRead d session) (isGiven : given) :
    channel.call = .returned ∧ ∃ rest, incoming.arrived = header ++ rest ∧ rest <+: channel.app ∧
      channel.taken <+: rest ∧ (¬ incoming.WasReset → incoming.recv.bytes = rest) := by
  obtain ⟨found, rest, foundHeader, arrived, unread⟩ := read
  obtain ⟨other, otherHeader, front⟩ := linked.taken isGiven
  obtain ⟨more, written⟩ := linked.arrived
  rw [arrived, List.append_assoc] at written
  have returned : channel.call = .returned := by
    by_contra opening
    obtain ⟨⟨missing, whole⟩, short, _⟩ := valid.opening opening
    rw [← written, List.append_assoc] at whole
    have same := header_unique foundHeader isHeader (whole.trans (List.append_nil header).symm)
    rw [← written, same, List.length_append] at short
    omega
  have wrote := valid.returned returned
  rw [wrote] at written
  obtain rfl := header_unique foundHeader isHeader written
  obtain ⟨behind, taken⟩ := front
  rw [arrived, List.append_assoc] at taken
  obtain rfl := header_unique otherHeader foundHeader taken
  exact ⟨returned, rest, arrived, ⟨more, List.append_cancel_left written⟩,
    ⟨behind, List.append_cancel_left taken⟩, unread⟩

theorem Valid.reads (valid : channel.Valid header reliable) (isHeader : d.Header session header)
    (linked : channel.Linked d session given incoming) (read : incoming.HeaderRead d session) (isGiven : given)
    (reads : channel.Reads incoming next) :
    next.Valid header reliable ∧ next.Linked d session given incoming := by
  obtain ⟨returned, rest, arrived, front, taken, unread⟩ := valid.content isHeader linked read isGiven
  have links : ∀ {taken : List UInt8} {told : Option Told}, taken <+: rest →
      Linked d session given { channel with taken, told } incoming := by
    intro taken told front
    refine ⟨linked.arrived, linked.within, linked.ended, linked.reset, fun _ => ⟨header, isHeader, ?_⟩⟩
    rw [arrived]
    exact (List.prefix_append_right_inj header).mpr front
  cases reads with
  | taken count unreset untold =>
      obtain ⟨behind, rfl⟩ := taken
      refine ⟨⟨valid.follows, valid.reset, valid.limit, fun told => ?_, fun told => ?_⟩, links ?_⟩
      · rw [untold] at told
        cases told
      · rw [untold] at told
        cases told
      · rw [unread unreset, List.drop_left]
        exact (List.prefix_append_right_inj _).mpr (List.take_prefix _ _)
  | finished ends all =>
      have unreset : ¬ incoming.WasReset := by
        intro wasReset
        obtain ⟨error, failed⟩ := wasReset
        rw [ends] at failed
        cases failed
      have whole := (linked.ended ends).2
      rw [arrived, valid.returned returned, List.length_append, List.length_append] at whole
      rw [unread unreset] at all
      have same : rest = channel.app := front.eq_of_length (by omega)
      refine ⟨⟨valid.follows, valid.reset, valid.limit, fun _ => ?_, fun told => by cases told⟩, links taken⟩
      exact ⟨returned, (linked.ended ends).1,
        (taken.eq_of_length (Nat.le_antisymm taken.length_le all)).trans same⟩
  | reset wasReset isReset =>
      refine ⟨⟨valid.follows, valid.reset, valid.limit, fun told => (by cases told), fun told => ?_⟩,
        links taken⟩
      cases told
      exact ⟨_, isReset, rfl⟩

theorem Linked.congr {given' : Prop} {other : Incoming} (linked : channel.Linked d session given incoming)
    (same : incoming.arrival = other.arrival) (stays : given → given')
    (taken : given' → ¬ given →
      ∃ header, d.Header session header ∧ header ++ channel.taken <+: other.arrived) :
    channel.Linked d session given' other := by
  obtain ⟨arrived, ending⟩ := Prod.mk.inj same
  refine ⟨?_, ?_, ?_, fun wasReset => ?_, fun isGiven => ?_⟩
  · rw [← arrived]
    exact linked.arrived
  · rw [← arrived]
    exact linked.within
  · rw [← arrived, ← ending]
    exact linked.ended
  · obtain ⟨reset, isReset, size⟩ := linked.reset ((Incoming.WasReset.congr same).mpr wasReset)
    exact ⟨reset, isReset, fun missing => size fun before => missing (stays before)⟩
  · by_cases before : given
    · rw [← arrived]
      exact linked.taken before
    · exact taken isGiven before

theorem Linked.receive (linked : channel.Linked d session given incoming) (isOpen : incoming.recv.ending = .waiting)
    {count : Nat} (fits : incoming.arrived.length + count ≤ channel.carried) :
    channel.Linked d session given
      (incoming.receive ((channel.written.drop incoming.arrived.length).take count)) := by
  have waiting : ∀ chunk, (incoming.receive chunk).recv.ending = .waiting := fun _ => isOpen
  obtain ⟨behind, written⟩ := linked.arrived
  have rest : channel.written.drop incoming.arrived.length = behind := by
    rw [← written, List.drop_left]
  rw [rest]
  refine ⟨?_, ?_, fun ends => ?_, fun wasReset => ?_, fun isGiven => ?_⟩
  · rw [Incoming.receive, ← written]
    exact (List.prefix_append_right_inj _).mpr (List.take_prefix _ _)
  · rw [Incoming.receive, List.length_append, List.length_take]
    omega
  · rw [waiting] at ends
    cases ends
  · exact absurd wasReset (Incoming.not_wasReset_of_waiting (waiting _))
  · obtain ⟨header, isHeader, front⟩ := linked.taken isGiven
    exact ⟨header, isHeader, front.trans (List.prefix_append _ _)⟩

theorem Linked.brings {happening : NetworkEvent} {id : Nat} {side after : Side backend}
    (linked : channel.Linked d session given incoming) (found : side.streams[id]? = some incoming)
    (untouched : ¬ given → channel.taken = [] ∧ incoming.Unread) (brought : channel.Brings id incoming happening)
    (happened : side.network happening = some after) :
    ∃ effect, after = { side with streams := side.streams.modify id effect } ∧
      channel.Linked d session given (effect incoming) := by
  have changes : ∀ {effect : Incoming → Incoming}, side.change id effect = some after →
      (incoming.recv.ending = .waiting → channel.Linked d session given (effect incoming)) →
      ∃ effect, after = { side with streams := side.streams.modify id effect } ∧
        channel.Linked d session given (effect incoming) := by
    intro effect changed links
    obtain ⟨stream, known, isOpen, result⟩ := Side.change_cases changed
    rw [found] at known
    cases known
    exact ⟨effect, result, links isOpen⟩
  cases brought with
  | bytes positive fits => exact changes happened fun isOpen => linked.receive isOpen fits
  | finish finished all =>
      refine changes happened fun isOpen => ?_
      refine ⟨linked.arrived, linked.within, fun _ => ⟨finished, all⟩, fun wasReset => ?_, linked.taken⟩
      obtain ⟨error, failed⟩ := wasReset
      cases failed
  | @reset reset error isReset behind =>
      refine changes happened fun isOpen => ?_
      refine ⟨linked.arrived, linked.within, fun ends => (by cases ends),
        fun _ => ⟨reset, isReset, fun missing => ?_⟩,
        linked.taken⟩
      obtain ⟨untaken, unread⟩ := untouched missing
      rw [untaken, unread.1 (Incoming.not_wasReset_of_waiting isOpen)] at behind
      simpa using behind

end Channel

/-! ## Both ends -/

/-- The streams that the opening end has and those that the accepting end has
met are the same ones. -/
structure Agrees {url : UrlCrate} (opener : Established url) (session : VarInt) (negotiated : Bool)
    (s : State backend) : Prop where
  accept : s.accept.Valid session
  count : ∀ d, (s.accept.side d).streams.length ≤ (s.channels d).length
  valid : ∀ {d : Direction} {id : Nat} {channel : Channel backend}, (s.channels d)[id]? = some channel →
    channel.Valid (opener.header d) (reliablePrefix backend (opener.header d).length negotiated)
  linked : ∀ {d : Direction} {id : Nat} {channel : Channel backend} {incoming : Incoming},
    (s.channels d)[id]? = some channel → s.incoming d id = some incoming →
    channel.Linked d session (id ∈ (s.accept.side d).delivered) incoming
  untouched : ∀ {d : Direction} {id : Nat} {channel : Channel backend}, (s.channels d)[id]? = some channel →
    id ∉ (s.accept.side d).delivered → channel.taken = [] ∧ channel.told = none

section Runs

variable {url : UrlCrate} {opener : Established url} {negotiated : Bool} {s t : State backend}

theorem agrees_start : Agrees opener session negotiated (start : State backend) where
  accept := start_valid
  count d := by cases d <;> exact Nat.le_refl _
  valid found := by cases found
  linked found := by cases found
  untouched found := by cases found

theorem found_set {channels : List (Channel backend)} {id other : Nat} {next channel : Channel backend}
    (found : (channels.set id next)[other]? = some channel) :
    other = id ∧ channel = next ∨ other ≠ id ∧ channels[other]? = some channel := by
  rw [List.getElem?_set] at found
  split at found
  next same =>
    split at found
    next =>
      cases found
      exact .inl ⟨same.symm, rfl⟩
    next => cases found
  next differs => exact .inr ⟨fun same => differs same.symm, found⟩

/-- One stream changes, and the accepting end stays as it is. -/
theorem Agrees.set (agrees : Agrees opener session negotiated s) {d : Direction} {id : Nat} {next : Channel backend}
    (valid : next.Valid (opener.header d) (reliablePrefix backend (opener.header d).length negotiated))
    (linked : ∀ {incoming}, s.incoming d id = some incoming →
      next.Linked d session (id ∈ (s.accept.side d).delivered) incoming)
    (untouched : id ∉ (s.accept.side d).delivered → next.taken = [] ∧ next.told = none) :
    Agrees opener session negotiated
      { s with channels := Function.update s.channels d ((s.channels d).set id next) } := by
  have cases_ : ∀ {other : Direction} {at_ : Nat} {channel : Channel backend},
      (Function.update s.channels d ((s.channels d).set id next) other)[at_]? = some channel →
      (other = d ∧ at_ = id ∧ channel = next) ∨ (s.channels other)[at_]? = some channel := by
    intro other at_ channel found
    by_cases same : other = d
    · subst same
      rw [Function.update_self] at found
      rcases found_set found with ⟨rfl, rfl⟩ | ⟨_, found⟩
      · exact .inl ⟨rfl, rfl, rfl⟩
      · exact .inr found
    · rw [Function.update_of_ne same] at found
      exact .inr found
  refine ⟨agrees.accept, fun other => ?_, fun found => ?_, fun found arrived => ?_, fun found missing => ?_⟩
  · dsimp only
    by_cases same : other = d
    · subst same
      rw [Function.update_self, List.length_set]
      exact agrees.count other
    · rw [Function.update_of_ne same]
      exact agrees.count other
  · rcases cases_ found with ⟨rfl, rfl, rfl⟩ | found
    · exact valid
    · exact agrees.valid found
  · rcases cases_ found with ⟨rfl, rfl, rfl⟩ | found
    · exact linked arrived
    · exact agrees.linked found arrived
  · rcases cases_ found with ⟨rfl, rfl, rfl⟩ | found
    · exact untouched missing
    · exact agrees.untouched found missing

theorem Agrees.opened (agrees : Agrees opener session negotiated s) (d : Direction) :
    Agrees opener session negotiated
      { s with channels := Function.update s.channels d (s.channels d ++ [.opened (opener.header d)]) } := by
  have cases_ : ∀ {other : Direction} {id : Nat} {channel : Channel backend},
      (Function.update s.channels d (s.channels d ++ [.opened (opener.header d)]) other)[id]? = some channel →
      (other = d ∧ id = (s.channels d).length ∧ channel = .opened (opener.header d)) ∨
        (s.channels other)[id]? = some channel := by
    intro other id channel found
    by_cases same : other = d
    · subst same
      rw [Function.update_self] at found
      rcases Nat.lt_trichotomy id (s.channels other).length with old | rfl | beyond
      · rw [List.getElem?_append_left old] at found
        exact .inr found
      · rw [List.getElem?_concat_length] at found
        cases found
        exact .inl ⟨rfl, rfl, rfl⟩
      · rw [List.getElem?_eq_none (by simp; omega)] at found
        cases found
    · rw [Function.update_of_ne same] at found
      exact .inr found
  refine ⟨agrees.accept, fun other => ?_, fun found => ?_, fun found arrived => ?_, fun found missing => ?_⟩
  · dsimp only
    by_cases same : other = d
    · subst same
      rw [Function.update_self, List.length_append]
      exact Nat.le_add_right_of_le (agrees.count other)
    · rw [Function.update_of_ne same]
      exact agrees.count other
  · rcases cases_ found with ⟨rfl, rfl, rfl⟩ | found
    · exact Channel.valid_opened _ _
    · exact agrees.valid found
  · rcases cases_ found with ⟨rfl, rfl, rfl⟩ | found
    · have met := (List.getElem?_eq_some_iff.mp arrived).1
      exact absurd (agrees.count _) (Nat.not_le_of_lt met)
    · exact agrees.linked found arrived
  · rcases cases_ found with ⟨rfl, rfl, rfl⟩ | found
    · exact ⟨rfl, rfl⟩
    · exact agrees.untouched found missing

/-- A poll at the accepting end, and the loss of its connection. -/
theorem Agrees.polled (agrees : Agrees opener session negotiated s) {accept : Accept.State backend}
    (valid : accept.Valid session)
    (arrivals : ∀ d, (accept.side d).streams.map Incoming.arrival = (s.accept.side d).streams.map Incoming.arrival)
    (stays : ∀ d, ∀ id ∈ (s.accept.side d).delivered, id ∈ (accept.side d).delivered) :
    Agrees opener session negotiated { s with accept } where
  accept := valid
  count d := by
    have lengths := congrArg List.length (arrivals d)
    rw [List.length_map, List.length_map] at lengths
    exact lengths ▸ agrees.count d
  valid := agrees.valid
  linked {d id channel incoming} found arrived := by
    obtain ⟨before, known, same⟩ := Side.arrival_found (arrivals d).symm arrived
    refine (agrees.linked found known).congr same (stays d id) fun isGiven missing => ?_
    obtain ⟨header, rest, isHeader, split, _⟩ := (valid d).headerRead arrived isGiven
    refine ⟨header, isHeader, ?_⟩
    rw [(agrees.untouched found missing).1, List.append_nil, split]
    exact List.prefix_append _ _
  untouched found missing := agrees.untouched found fun isGiven => missing (stays _ _ isGiven)

theorem incoming_arrive (s : State backend) (d other : Direction) (queue : List Nat) (id : Nat) :
    State.incoming { s with accept := s.accept.setSide { s.accept.side d with
      streams := (s.accept.side d).streams ++ [.opened], queue } d } other id =
        if other = d ∧ id = (s.accept.side d).streams.length then some .opened else s.incoming other id := by
  rw [State.incoming, State.incoming, Accept.State.side_setSide]
  by_cases same : other = d
  · subst same
    rw [if_pos rfl]
    rcases Nat.lt_trichotomy id (s.accept.side other).streams.length with old | rfl | beyond
    · rw [List.getElem?_append_left old, if_neg fun both => Nat.ne_of_lt old both.2]
    · rw [List.getElem?_concat_length, if_pos ⟨rfl, rfl⟩]
    · rw [List.getElem?_eq_none (by simp; omega), if_neg fun both => Nat.ne_of_gt beyond both.2,
        List.getElem?_eq_none (Nat.le_of_lt beyond)]
  · rw [if_neg same, if_neg fun both => same both.1]

theorem incoming_modify (s : State backend) (d other : Direction) (id at_ : Nat) (effect : Incoming → Incoming) :
    State.incoming { s with accept := s.accept.setSide { s.accept.side d with
      streams := (s.accept.side d).streams.modify id effect } d } other at_ =
        if other = d ∧ at_ = id then (s.incoming d id).map effect else s.incoming other at_ := by
  rw [State.incoming, State.incoming, State.incoming, Accept.State.side_setSide]
  by_cases same : other = d
  · subst same
    rw [if_pos rfl]
    by_cases here : at_ = id
    · rw [here, if_pos ⟨rfl, rfl⟩]
      exact List.getElem?_modify_eq _ _ _
    · rw [List.getElem?_modify_ne _ _ fun back => here back.symm, if_neg fun both => here both.2]
  · rw [if_neg same, if_neg fun both => same both.1]

theorem delivered_setSide (s : State backend) {d other : Direction} {side : Side backend}
    (same : side.delivered = (s.accept.side d).delivered) :
    ((s.accept.setSide side d).side other).delivered = (s.accept.side other).delivered := by
  rw [Accept.State.side_setSide]
  split
  next here => rw [same, here]
  next => rfl

theorem count_setSide {s : State backend} {d : Direction} {side : Side backend}
    (counts : ∀ other, (s.accept.side other).streams.length ≤ (s.channels other).length)
    (fits : side.streams.length ≤ (s.channels d).length) (other : Direction) :
    ((s.accept.setSide side d).side other).streams.length ≤ (s.channels other).length := by
  rw [Accept.State.side_setSide]
  split
  next here => rwa [here]
  next => exact counts other

theorem room_of_announced {d : Direction}
    (announced : ((s.channels d).drop (s.accept.side d).streams.length).any Channel.announced = true) :
    (s.accept.side d).streams.length < (s.channels d).length := by
  by_contra full
  rw [List.drop_eq_nil_of_le (Nat.le_of_not_lt full)] at announced
  cases announced

theorem Agrees.arrives (agrees : Agrees opener session negotiated s) {d : Direction} {accept : Accept.State backend}
    (announced : ((s.channels d).drop (s.accept.side d).streams.length).any Channel.announced = true)
    (stepped : Accept.step session s.accept (.network d .arrive) = some accept) :
    Agrees opener session negotiated { s with accept } := by
  have valid := step_valid agrees.accept stepped
  obtain ⟨_, side, happened, rfl⟩ := step_network_cases stepped
  cases happened
  have delivered := fun other => @delivered_setSide _ s d other { s.accept.side d with
    streams := (s.accept.side d).streams ++ [.opened],
    queue := (s.accept.side d).queue ++ [(s.accept.side d).streams.length] } rfl
  refine ⟨valid, ?_, agrees.valid, fun {other id channel incoming} found arrived => ?_, fun found missing => ?_⟩
  · refine count_setSide agrees.count ?_
    rw [List.length_append]
    exact room_of_announced announced
  · rw [incoming_arrive] at arrived
    dsimp only
    rw [delivered other]
    split at arrived
    next here =>
      obtain ⟨rfl, rfl⟩ := here
      cases arrived
      refine ⟨List.nil_prefix, Nat.zero_le _, fun ends => (by cases ends), fun wasReset => ?_, fun isGiven => ?_⟩
      · obtain ⟨error, failed⟩ := wasReset
        cases failed
      · have known := (agrees.accept other).known _ (Side.delivered_tracked isGiven)
        exact absurd known (Nat.lt_irrefl _)
    next => exact agrees.linked found arrived
  · dsimp only at missing
    rw [delivered] at missing
    exact agrees.untouched found missing

theorem Agrees.brings (agrees : Agrees opener session negotiated s) {d : Direction} {id : Nat}
    {channel : Channel backend} {incoming : Incoming} {happening : NetworkEvent} {accept : Accept.State backend}
    (found : (s.channels d)[id]? = some channel) (arrived : s.incoming d id = some incoming)
    (brought : channel.Brings id incoming happening)
    (stepped : Accept.step session s.accept (.network d happening) = some accept) :
    Agrees opener session negotiated { s with accept } := by
  have valid := step_valid agrees.accept stepped
  obtain ⟨_, side, happened, rfl⟩ := step_network_cases stepped
  have unread : id ∉ (s.accept.side d).delivered → channel.taken = [] ∧ incoming.Unread :=
    fun missing => ⟨(agrees.untouched found missing).1, (agrees.accept d).unread arrived missing⟩
  obtain ⟨effect, rfl, linked⟩ := (agrees.linked found arrived).brings arrived unread brought happened
  have delivered := fun other => @delivered_setSide _ s d other
    { s.accept.side d with streams := (s.accept.side d).streams.modify id effect } rfl
  refine ⟨valid, ?_, agrees.valid, fun {other at_ channel incoming} known there => ?_, fun known missing => ?_⟩
  · refine count_setSide agrees.count ?_
    rw [List.length_modify]
    exact agrees.count d
  · rw [incoming_modify] at there
    dsimp only
    rw [delivered other]
    split at there
    next here =>
      obtain ⟨rfl, rfl⟩ := here
      rw [arrived] at there
      rw [found] at known
      cases known
      cases there
      exact linked
    next => exact agrees.linked known there
  · dsimp only at missing
    rw [delivered] at missing
    exact agrees.untouched known missing

theorem arrivedLength_eq {d : Direction} {id : Nat} {incoming : Incoming} (arrived : s.incoming d id = some incoming) :
    s.arrivedLength d id = incoming.arrived.length := by
  rw [State.arrivedLength, arrived]
  rfl

theorem Agrees.transports (agrees : Agrees opener session negotiated s) (transported : Transports session s t) :
    Agrees opener session negotiated t := by
  cases transported with
  | @discards d id channel reset found isReset less =>
      have untouched : id ∉ (s.accept.side d).delivered → channel.taken = [] ∧ channel.told = none :=
        agrees.untouched found
      refine agrees.set ((agrees.valid found).discards isReset less) (fun arrived => ?_) untouched
      have linked := agrees.linked found arrived
      refine ⟨linked.arrived, ?_, linked.ended, linked.reset, linked.taken⟩
      rw [arrivedLength_eq arrived]
      exact Nat.le_max_left _ _
  | arrives announced stepped => exact agrees.arrives announced stepped
  | brings found arrived brought stepped => exact agrees.brings found arrived brought stepped

theorem Agrees.moves (headers : ∀ d : Direction, d.Header session (opener.header d))
    (agrees : Agrees opener session negotiated s) (moves : Moves opener session negotiated s t) :
    Agrees opener session negotiated t := by
  cases moves with
  | opened d => exact agrees.opened d
  | writes found wrote =>
      have valid := agrees.valid found
      obtain ⟨taken, told⟩ := Channel.taken_of_writes wrote
      refine agrees.set (valid.writes wrote) (fun arrived => ?_) (fun missing => ?_)
      · exact (agrees.linked found arrived).writes valid wrote
      · rw [taken, told]
        exact agrees.untouched found missing
  | reads found arrived given read =>
      have headerRead := (agrees.accept _).headerRead arrived given
      have both := (agrees.valid found).reads (headers _) (agrees.linked found arrived) headerRead given read
      refine agrees.set both.1 (fun known => ?_) (fun missing => absurd given missing)
      rw [arrived] at known
      cases known
      exact both.2
  | transports transported => exact agrees.transports transported
  | lost stepped =>
      have valid := step_valid agrees.accept stepped
      obtain ⟨_, rfl⟩ := step_lose_cases stepped
      refine agrees.polled valid (fun d => ?_) (fun d id isGiven => ?_)
      · rw [Accept.State.side_lost]
      · rw [Accept.State.side_lost]
        exact isGiven
  | @polled d completions accept stepped =>
      have valid := step_valid agrees.accept stepped
      obtain ⟨polled, _, elsewhere⟩ := step_poll_cases stepped
      refine agrees.polled valid (fun other => ?_) (fun other id isGiven => ?_)
      · by_cases same : other = d
        · subst same
          exact Side.poll_arrivals polled
        · rw [elsewhere other same]
      · by_cases same : other = d
        · subst same
          exact Side.poll_delivered polled isGiven
        · rw [elsewhere other same]
          exact isGiven

theorem agrees_run {events : List (Event backend)} (headers : ∀ d : Direction, d.Header session (opener.header d))
    (agrees : Agrees opener session negotiated s) (ran : run (step opener session negotiated) s events = some t) :
    Agrees opener session negotiated t := by
  refine run_invariant ?_ agrees ran
  intro state event next agrees stepped
  exact agrees.moves headers (moves_of_step stepped)

theorem header_new (sessionId : VarInt) (target : url.Url) (d : Direction) :
    d.Header sessionId ((Established.new sessionId target).header d) := by
  rw [Established.header_new]
  exact Direction.header_encode

theorem agrees_of_run {sessionId : VarInt} {target : url.Url} {events : List (Event backend)}
    (ran : run (step (.new sessionId target) sessionId negotiated) start events = some s) :
    Agrees (Established.new sessionId target) sessionId negotiated s :=
  agrees_run (header_new sessionId target) agrees_start ran

/-- Whatever is delivered when, and whatever is cut off, the application at one
end is given every stream once at most, and only streams that the other one has
opened.  It reads there what was written, and is told how that ended. -/
theorem streams_agree {sessionId : VarInt} {target : url.Url} {events : List (Event backend)}
    (ran : run (step (.new sessionId target) sessionId negotiated) start events = some s) (d : Direction) :
    (s.accept.side d).delivered.Nodup ∧
    (∀ id ∈ (s.accept.side d).delivered, ∃ channel incoming, (s.channels d)[id]? = some channel ∧
      s.incoming d id = some incoming ∧ channel.call = .returned ∧ channel.taken <+: channel.app ∧
      (¬ incoming.WasReset → channel.taken <+: incoming.recv.bytes ∧ incoming.recv.bytes <+: channel.app) ∧
      (channel.told = some .finished → channel.finished = true ∧ channel.taken = channel.app) ∧
      ∀ found, channel.told = some (.reset found) →
        ∃ code reset, found = some code ∧ channel.reset = some reset ∧ reset.code = resetCode code) ∧
    ∀ id channel, (s.channels d)[id]? = some channel → id ∉ (s.accept.side d).delivered →
      channel.taken = [] ∧ channel.told = none := by
  have agrees := agrees_of_run ran
  refine ⟨(agrees.accept d).delivered_nodup, fun id isGiven => ?_,
    fun _ _ found missing => agrees.untouched found missing⟩
  have met := (agrees.accept d).known id (Side.delivered_tracked isGiven)
  have arrived := List.getElem?_eq_getElem met
  have found := List.getElem?_eq_getElem (Nat.lt_of_lt_of_le met (agrees.count d))
  have valid := agrees.valid found
  have read := (agrees.accept d).headerRead arrived isGiven
  obtain ⟨returned, rest, _, front, taken, unread⟩ :=
    valid.content (header_new sessionId target d) (agrees.linked found arrived) read isGiven
  refine ⟨_, _, found, arrived, returned, taken.trans front, fun unreset => ?_, fun told => ?_,
    fun code told => ?_⟩
  · rw [unread unreset]
    exact ⟨taken, front⟩
  · exact (valid.toldFinished told).2
  · obtain ⟨reset, isReset, rfl⟩ := valid.toldReset told
    obtain ⟨_, code, sent⟩ := valid.reset isReset
    refine ⟨code, reset, ?_, isReset, sent⟩
    rw [sent]
    exact errorFromHttp3_errorToHttp3 code

/-- A stream that is given up in its header, and one that is reset with
code 42. -/
def twoStreams : List (Event .quion) :=
  [.openStream .uni, .writeHeader .uni 0 2, .cancel .uni 0, .openStream .uni, .writeHeader .uni 1 1,
    .arrive .uni, .writeHeader .uni 1 2, .write .uni 1 [0x68, 0x69], .reset .uni 1 42, .arrive .uni,
    .receive .uni 1 4, .discard .uni 1, .receive .uni 0 2, .receiveEnd .uni 0, .poll .uni [0, 1],
    .read .uni 1 1, .receiveReset .uni 1 .earlyEof, .readEnd .uni 1]

theorem streams_agree_twoStreams :
    ∃ s : State .quion, (s.accept.side .uni).delivered = [1] ∧
      (s.channels .uni).map Channel.taken = [[], [0x68]] ∧
      (s.channels .uni).map Channel.told = [none, some (.reset (some 42))] ∧
      (s.accept.side .uni).delivered.Nodup := by
  have reached : (run (step (.new (VarInt.fromU32 4) () : Established ConnectRequest.roomUrls.toUrlCrate)
      (VarInt.fromU32 4) true) start twoStreams).map (fun s => ((s.accept.side .uni).delivered,
        (s.channels .uni).map Channel.taken, (s.channels .uni).map Channel.told)) =
      some ([1], [[], [0x68]], [none, some (.reset (some 42))]) := by decide +kernel
  obtain ⟨s, ran, seen⟩ := Option.map_eq_some_iff.mp reached
  obtain ⟨delivered, rest⟩ := Prod.mk.inj seen
  obtain ⟨taken, told⟩ := Prod.mk.inj rest
  exact ⟨s, delivered, taken, told, (streams_agree ran .uni).1⟩

end Runs

end Webtrans.Session.Opening
