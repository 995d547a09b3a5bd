import Webtrans.Session.Accept
import Mathlib.Data.List.Nodup
import Mathlib.Data.List.Perm.Subperm

namespace Webtrans.Session.Accept

open Webtrans.Data Webtrans.Proto

/-! Every incoming stream is in the accept queue, among the pending decodes,
with the application, or rejected for good. -/

variable {backend : Backend} {d : Direction} {session : VarInt}

theorem Direction.Header.ne_nil {header : List UInt8} (isHeader : d.Header session header) : header ≠ [] := by
  obtain ⟨typBytes, sessionBytes, rfl, typReads, _⟩ := isHeader
  intro empty
  obtain ⟨rfl, _⟩ := List.append_eq_nil_iff.mp empty
  have decoded := typReads []
  cases decoded

namespace Incoming

def WasReset (stream : Incoming) : Prop :=
  ∃ error, stream.recv.ending = .failed error

/-- A complete, valid header has arrived, and no reset. -/
def Complete (d : Direction) (session : VarInt) (stream : Incoming) : Prop :=
  ¬ stream.WasReset ∧ ∃ header rest, d.Header session header ∧ stream.arrived = header ++ rest

/-- Nobody has read from the stream. -/
def Unread (stream : Incoming) : Prop :=
  (¬ stream.WasReset → stream.recv.bytes = stream.arrived) ∧ (stream.WasReset → stream.recv.bytes = [])

/-- The header has been read, and nothing behind it. -/
def HeaderRead (d : Direction) (session : VarInt) (stream : Incoming) : Prop :=
  ∃ header rest, d.Header session header ∧ stream.arrived = header ++ rest ∧
    (¬ stream.WasReset → stream.recv.bytes = rest)

/-- Whatever may still arrive, the stream does not begin with a valid header. -/
def Rejected (d : Direction) (session : VarInt) (stream : Incoming) : Prop :=
  ∀ more, stream.recv.MayBring more → ∀ header rest, d.Header session header →
    stream.arrived ++ more ≠ header ++ rest

/-- What a decode that has not finished or has not read yet cannot change. -/
def arrival (stream : Incoming) : List UInt8 × Ending IoError :=
  (stream.arrived, stream.recv.ending)

variable {stream other : Incoming} {effect : Incoming → Incoming}

theorem WasReset.congr (same : other.arrival = stream.arrival) : other.WasReset ↔ stream.WasReset := by
  obtain ⟨_, ending⟩ := Prod.mk.inj same
  rw [WasReset, WasReset, ending]

theorem Complete.congr (same : other.arrival = stream.arrival) :
    other.Complete d session ↔ stream.Complete d session := by
  obtain ⟨arrived, _⟩ := Prod.mk.inj same
  rw [Complete, Complete, WasReset.congr same, arrived]

theorem not_wasReset_of_waiting (isOpen : stream.recv.ending = .waiting) : ¬ stream.WasReset := by
  intro reset
  obtain ⟨error, failed⟩ := reset
  rw [isOpen] at failed
  cases failed

theorem not_wasReset_of_mayBring {more : List UInt8} (may : stream.recv.MayBring more) :
    ¬ stream.WasReset := by
  intro reset
  obtain ⟨error, failed⟩ := reset
  rw [ByteStream.MayBring, failed] at may
  exact may

theorem mayBring_nil (unreset : ¬ stream.WasReset) : stream.recv.MayBring [] := by
  rw [ByteStream.MayBring]
  cases ending : stream.recv.ending with
  | failed error => exact unreset ⟨error, ending⟩
  | _ => trivial

theorem Complete.not_rejected (complete : stream.Complete d session) : ¬ stream.Rejected d session := by
  intro rejected
  obtain ⟨unreset, header, rest, isHeader, arrived⟩ := complete
  exact rejected [] (mayBring_nil unreset) header rest isHeader (by rw [List.append_nil, arrived])

theorem receive_bytes (chunk : List UInt8) : (stream.receive chunk).recv.bytes = stream.recv.bytes ++ chunk := by
  simp [receive, ByteStream.bytes]

theorem reset_wasReset (error : IoError) : (stream.reset error).WasReset :=
  ⟨error, rfl⟩

theorem Unread.not_wasReset {recv : ByteStream IoError} (unread : stream.Unread)
    (decoded : (d.decode session stream.recv : Read IoError (SessionError backend) Accepted) =
      .done .webtransport recv) : ¬ stream.WasReset := by
  obtain ⟨header, rest, isHeader, bytes, _⟩ := Direction.header_of_decode decoded
  intro reset
  rw [unread.2 reset] at bytes
  exact isHeader.ne_nil (List.append_eq_nil_iff.mp bytes.symm).1

theorem Unread.changes (isOpen : stream.recv.ending = .waiting) (unread : stream.Unread)
    (changes : Side.Changes effect) : (effect stream).Unread := by
  have bytes := unread.1 (not_wasReset_of_waiting isOpen)
  cases changes with
  | receive chunk =>
      refine ⟨fun _ => ?_, fun reset => absurd reset (not_wasReset_of_waiting isOpen)⟩
      rw [receive_bytes, bytes]
      rfl
  | finish =>
      refine ⟨fun _ => bytes, fun reset => ?_⟩
      obtain ⟨error, failed⟩ := reset
      cases failed
  | reset error => exact ⟨fun unreset => absurd (reset_wasReset error) unreset, fun _ => rfl⟩

theorem HeaderRead.changes (isOpen : stream.recv.ending = .waiting)
    (read : stream.HeaderRead d session) (changes : Side.Changes effect) :
    (effect stream).HeaderRead d session := by
  obtain ⟨header, rest, isHeader, arrived, behind⟩ := read
  have bytes := behind (not_wasReset_of_waiting isOpen)
  cases changes with
  | receive chunk =>
      refine ⟨header, rest ++ chunk, isHeader, ?_, fun _ => by rw [receive_bytes, bytes]⟩
      rw [receive, arrived, List.append_assoc]
  | finish => exact ⟨header, rest, isHeader, arrived, fun _ => bytes⟩
  | reset error =>
      exact ⟨header, rest, isHeader, arrived, fun unreset => absurd (reset_wasReset error) unreset⟩

theorem Rejected.changes (isOpen : stream.recv.ending = .waiting) (rejected : stream.Rejected d session)
    (changes : Side.Changes effect) : (effect stream).Rejected d session := by
  have may : ∀ more, stream.recv.MayBring more := by
    intro more
    rw [ByteStream.MayBring, isOpen]
    trivial
  intro more still header rest isHeader
  cases changes with
  | receive chunk =>
      rw [receive, List.append_assoc]
      exact rejected (chunk ++ more) (may _) header rest isHeader
  | finish => exact rejected more (may _) header rest isHeader
  | reset error => exact still.elim

end Incoming

namespace Side

variable {lost : Option (ConnectionError backend)} {side next : Side backend} {id : Nat}
  {stream : Incoming} {recv : ByteStream IoError}

/-- The streams that are queued, being decoded, or delivered. -/
def tracked (side : Side backend) : List Nat :=
  side.queue ++ (side.pending ++ side.delivered)

structure Valid (d : Direction) (session : VarInt) (side : Side backend) : Prop where
  nodup : side.tracked.Nodup
  known : ∀ id ∈ side.tracked, id < side.streams.length
  unread : ∀ {id stream}, side.streams[id]? = some stream → id ∉ side.delivered → stream.Unread
  headerRead : ∀ {id stream}, side.streams[id]? = some stream → id ∈ side.delivered →
    stream.HeaderRead d session
  rejected : ∀ {id stream}, side.streams[id]? = some stream → id ∉ side.tracked →
    stream.Rejected d session

theorem pending_tracked (member : id ∈ side.pending) : id ∈ side.tracked :=
  List.mem_append_right _ (List.mem_append_left _ member)

theorem delivered_tracked (member : id ∈ side.delivered) : id ∈ side.tracked :=
  List.mem_append_right _ (List.mem_append_right _ member)

theorem valid_empty : Valid d session ({} : Side backend) where
  nodup := List.nodup_nil
  known := List.forall_mem_nil _
  unread found := by cases found
  headerRead found := by cases found
  rejected found := by cases found

theorem Valid.pending_not_delivered (valid : side.Valid d session) (member : id ∈ side.pending) :
    id ∉ side.delivered :=
  List.disjoint_of_nodup_append (List.nodup_append.mp valid.nodup).2.1 member

theorem Valid.delivered_nodup (valid : side.Valid d session) : side.delivered.Nodup :=
  (List.nodup_append.mp (List.nodup_append.mp valid.nodup).2.1).2.1

/-- The invariant looks at the streams and at where each of them is. -/
theorem Valid.of_perm (valid : side.Valid d session) (moved : next.tracked.Perm side.tracked)
    (streams : next.streams = side.streams) (delivered : next.delivered = side.delivered) :
    next.Valid d session where
  nodup := moved.nodup_iff.mpr valid.nodup
  known id member := by
    rw [streams]
    exact valid.known id (moved.mem_iff.mp member)
  unread found outside := by
    rw [streams] at found
    rw [delivered] at outside
    exact valid.unread found outside
  headerRead found inside := by
    rw [streams] at found
    rw [delivered] at inside
    exact valid.headerRead found inside
  rejected found outside := by
    rw [streams] at found
    exact valid.rejected found fun member => outside (moved.mem_iff.mpr member)

theorem Valid.arrive (valid : side.Valid d session) :
    Valid d session { side with
      streams := side.streams ++ [.opened], queue := side.queue ++ [side.streams.length] } := by
  have fresh : side.streams.length ∉ side.tracked :=
    fun member => Nat.lt_irrefl _ (valid.known _ member)
  have moved : (side.queue ++ [side.streams.length] ++ (side.pending ++ side.delivered)).Perm
      (side.streams.length :: side.tracked) := by
    rw [List.append_assoc, List.singleton_append]
    exact List.perm_middle
  have found_cases : ∀ {id : Nat} {stream : Incoming}, (side.streams ++ [.opened])[id]? = some stream →
      side.streams[id]? = some stream ∨ id = side.streams.length ∧ stream = .opened := by
    intro id stream found
    rcases Nat.lt_trichotomy id side.streams.length with old | rfl | beyond
    · rw [List.getElem?_append_left old] at found
      exact Or.inl found
    · rw [List.getElem?_concat_length] at found
      cases found
      exact Or.inr ⟨rfl, rfl⟩
    · rw [List.getElem?_eq_none (by simp only [List.length_append, List.length_singleton]; omega)] at found
      cases found
  refine ⟨moved.nodup_iff.mpr (List.nodup_cons.mpr ⟨fresh, valid.nodup⟩), ?_, ?_, ?_, ?_⟩
  · intro id member
    rw [List.length_append, List.length_singleton]
    rcases List.mem_cons.mp (moved.mem_iff.mp member) with rfl | tracked
    · omega
    · have := valid.known id tracked
      omega
  · intro id stream found outside
    rcases found_cases found with old | ⟨rfl, rfl⟩
    · exact valid.unread old outside
    · refine ⟨fun _ => rfl, fun _ => rfl⟩
  · intro id stream found inside
    rcases found_cases found with old | ⟨rfl, rfl⟩
    · exact valid.headerRead old inside
    · exact absurd (@delivered_tracked _ side _ inside) fresh
  · intro id stream found outside
    rcases found_cases found with old | ⟨rfl, rfl⟩
    · exact valid.rejected old fun member => outside (moved.mem_iff.mpr (List.mem_cons_of_mem _ member))
    · exact absurd (moved.mem_iff.mpr List.mem_cons_self) outside

theorem modified {streams : List Incoming} {effect : Incoming → Incoming} {other : Nat} {after : Incoming}
    (found : (streams.modify id effect)[other]? = some after) :
    ∃ before, streams[other]? = some before ∧ after = if id = other then effect before else before := by
  rw [List.getElem?_modify] at found
  obtain ⟨before, known, same⟩ := Option.map_eq_some_iff.mp found
  exact ⟨before, known, same.symm⟩

theorem Valid.change {effect : Incoming → Incoming} (valid : side.Valid d session)
    (found : side.streams[id]? = some stream) (isOpen : stream.recv.ending = .waiting)
    (changes : Changes effect) : Valid d session { side with streams := side.streams.modify id effect } := by
  have keeps : ∀ {holds : Incoming → Prop} {other : Nat} {after : Incoming},
      (∀ {stream : Incoming}, stream.recv.ending = .waiting → holds stream → holds (effect stream)) →
      (∀ {before}, side.streams[other]? = some before → holds before) →
      (side.streams.modify id effect)[other]? = some after → holds after := by
    intro holds other after kept before known
    obtain ⟨old, was, rfl⟩ := modified known
    split
    next same =>
      subst same
      have isOpen' : old.recv.ending = .waiting := by
        rw [found] at was
        cases was
        exact isOpen
      exact kept isOpen' (before was)
    next => exact before was
  refine ⟨valid.nodup, ?_, ?_, ?_, ?_⟩
  · intro id member
    rw [List.length_modify]
    exact valid.known id member
  · intro other after known outside
    exact keeps (fun isOpen unread => unread.changes isOpen changes)
      (fun before => valid.unread before outside) known
  · intro other after known inside
    exact keeps (fun isOpen read => Incoming.HeaderRead.changes isOpen read changes)
      (fun before => valid.headerRead before inside) known
  · intro other after known outside
    exact keeps (fun isOpen rejected => Incoming.Rejected.changes isOpen rejected changes)
      (fun before => valid.rejected before outside) known

theorem Valid.network {event : NetworkEvent} (valid : side.Valid d session)
    (happened : side.network event = some next) : next.Valid d session := by
  rcases network_cases happened with ⟨_, rfl⟩ | ⟨id, stream, effect, found, isOpen, changes, rfl⟩
  · exact valid.arrive
  · exact valid.change found isOpen changes

theorem Valid.takeQueued (valid : side.Valid d session) : side.takeQueued.Valid d session := by
  refine valid.of_perm ?_ rfl rfl
  change ([] ++ (side.pending ++ side.queue ++ side.delivered)).Perm _
  rw [List.nil_append, tracked, ← List.append_assoc]
  exact List.perm_append_comm.append_right _

theorem decode_eq (found : side.streams[id]? = some stream) :
    side.decode d session id = d.decode session stream.recv := by
  rw [decode, found]

theorem Valid.pending_found (valid : side.Valid d session) (member : id ∈ side.pending) :
    ∃ stream, side.streams[id]? = some stream ∧ stream.Unread := by
  have found := List.getElem?_eq_getElem (valid.known id (pending_tracked member))
  exact ⟨_, found, valid.unread found (valid.pending_not_delivered member)⟩

/-- A decode that has finished otherwise will never find the header. -/
theorem Valid.rejects (valid : side.Valid d session) (member : id ∈ side.pending)
    (finished : side.decode d session id ≠ .pending)
    (other : ∀ recv, side.decode d session id ≠ .done .webtransport recv)
    (found : side.streams[id]? = some stream) : stream.Rejected d session := by
  rw [decode_eq found] at finished other
  intro more may header rest isHeader split
  have unread := valid.unread found (valid.pending_not_delivered member)
  rw [← unread.1 (Incoming.not_wasReset_of_mayBring may)] at split
  rcases Direction.decode_on_prefix isHeader split may with waits | ⟨behind, complete⟩
  · exact finished waits
  · exact other _ (Direction.decode_header isHeader complete)

theorem Valid.drop (valid : side.Valid d session) (member : id ∈ side.pending)
    (finished : side.decode d session id ≠ .pending)
    (other : ∀ recv, side.decode d session id ≠ .done .webtransport recv) :
    (side.drop id).Valid d session := by
  have fewer : (side.drop id).tracked.Sublist side.tracked :=
    (List.erase_sublist.append_right _).append_left _
  refine ⟨valid.nodup.sublist fewer, fun _ member => valid.known _ (fewer.subset member),
    valid.unread, valid.headerRead, ?_⟩
  intro dropped stream found outside
  by_cases same : dropped = id
  · subst same
    exact valid.rejects member finished other found
  · refine valid.rejected found fun tracked => outside ?_
    rcases List.mem_append.mp tracked with queued | started
    · exact List.mem_append_left _ queued
    · rcases List.mem_append.mp started with waiting | delivered
      · exact List.mem_append_right _ (List.mem_append_left _ ((List.mem_erase_of_ne same).mpr waiting))
      · exact List.mem_append_right _ (List.mem_append_right _ delivered)

theorem Valid.deliver (valid : side.Valid d session) (member : id ∈ side.pending)
    (decoded : side.decode d session id = .done .webtransport recv) :
    (side.deliver id recv).Valid d session := by
  obtain ⟨stream, found, unread⟩ := valid.pending_found member
  rw [decode_eq found] at decoded
  have unreset := unread.not_wasReset decoded
  obtain ⟨header, rest, isHeader, bytes, rfl⟩ := Direction.header_of_decode decoded
  have moved : (side.deliver id (stream.recv.advance header.length)).tracked.Perm side.tracked := by
    refine List.Perm.append_left _ ?_
    change (side.pending.erase id ++ (side.delivered ++ [id])).Perm _
    rw [← List.append_assoc]
    refine List.perm_append_comm.trans ?_
    exact (List.perm_cons_erase member).symm.append_right side.delivered
  refine ⟨moved.nodup_iff.mpr valid.nodup, ?_, ?_, ?_, ?_⟩
  · intro other tracked
    rw [Side.deliver, List.length_modify]
    exact valid.known other (moved.mem_iff.mp tracked)
  · intro other after known outside
    obtain ⟨before, was, rfl⟩ := modified known
    have differs : id ≠ other := fun same => outside (same ▸ List.mem_append_right _ List.mem_cons_self)
    rw [if_neg differs]
    exact valid.unread was fun inside => outside (List.mem_append_left _ inside)
  · intro other after known inside
    obtain ⟨before, was, rfl⟩ := modified known
    by_cases same : id = other
    · subst same
      rw [found] at was
      cases was
      rw [if_pos rfl]
      refine ⟨header, rest, isHeader, by rw [← bytes, unread.1 unreset], fun _ => ?_⟩
      rw [ByteStream.bytes_advance, bytes, List.drop_left]
    · rw [if_neg same]
      rcases List.mem_append.mp inside with earlier | now
      · exact valid.headerRead was earlier
      · exact absurd (List.mem_singleton.mp now).symm same
  · intro other after known outside
    obtain ⟨before, was, rfl⟩ := modified known
    have untracked := fun tracked => outside (moved.mem_iff.mpr tracked)
    have differs : id ≠ other := fun same =>
      untracked (same ▸ pending_tracked member)
    rw [if_neg differs]
    exact valid.rejected was untracked

theorem Valid.poll {completions : List Nat} (valid : side.Valid d session)
    (polled : side.poll d session lost completions = some next) : next.Valid d session := by
  cases lost with
  | some error =>
      cases poll_lost polled
      exact valid.takeQueued.of_perm (.refl _) rfl rfl
  | none =>
      refine pollPending_rule (Valid d session) (Valid d session) ?_ ?_ ?_ polled valid.takeQueued
      · intro side id qpackDecoder qpackEncoder valid member finished other
        exact (valid.drop member finished other).of_perm (.refl _) rfl rfl
      · intro side id recv valid member decoded
        exact valid.deliver member decoded
      · intro side valid waiting
        exact valid.of_perm (.refl _) rfl rfl

/-- A poll that returns `Poll::Pending` leaves no complete stream behind. -/
theorem Valid.complete_delivered (valid : side.Valid d session) (emptied : side.queue = [])
    (waiting : ∀ id ∈ side.pending, side.decode d session id = .pending)
    (found : side.streams[id]? = some stream) (complete : stream.Complete d session) :
    id ∈ side.delivered := by
  by_contra outside
  have unread := valid.unread found outside
  by_cases pending : id ∈ side.pending
  · obtain ⟨unreset, header, rest, isHeader, arrived⟩ := complete
    rw [← unread.1 unreset] at arrived
    have decoded := waiting id pending
    rw [decode_eq found, Direction.decode_header isHeader arrived] at decoded
    cases decoded
  · refine complete.not_rejected (valid.rejected found fun tracked => ?_)
    rw [Side.tracked, emptied, List.nil_append] at tracked
    rcases List.mem_append.mp tracked with started | delivered
    · exact pending started
    · exact outside delivered

/-- What a poll on an open connection does: it stops on a set of decodes that
all wait, or it delivers one more stream. -/
inductive Outcome (d : Direction) (session : VarInt) (side : Side backend) : Side backend → Prop where
  | parked {next : Side backend} (polled : next.polled = some .pending) (emptied : next.queue = [])
      (waiting : ∀ id ∈ next.pending, next.decode d session id = .pending)
      (delivered : next.delivered = side.delivered) : Outcome d session side next
  | ready {next : Side backend} (id : Nat) (polled : next.polled = some (.ready id))
      (delivered : next.delivered = side.delivered ++ [id]) : Outcome d session side next

theorem poll_outcome {completions : List Nat}
    (polled : side.poll d session none completions = some next) : Outcome d session side next := by
  refine pollPending_rule (fun now => now.queue = [] ∧ now.delivered = side.delivered)
    (Outcome d session side) ?_ ?_ ?_ polled ⟨rfl, rfl⟩
  · intro now id _ _ kept _ _ _
    exact kept
  · intro now id recv kept _ _
    refine .ready id rfl ?_
    rw [Side.deliver, kept.2]
  · intro now kept waiting
    exact .parked rfl kept.1 waiting kept.2

theorem poll_delivered {completions : List Nat}
    (polled : side.poll d session lost completions = some next) (member : id ∈ side.delivered) :
    id ∈ next.delivered := by
  cases lost with
  | some error =>
      cases poll_lost polled
      exact member
  | none =>
      cases poll_outcome polled with
      | parked _ _ _ same => rwa [same]
      | ready other _ more => rw [more]; exact List.mem_append_left _ member

/-- A poll does not change what has arrived. -/
theorem poll_arrivals {completions : List Nat}
    (polled : side.poll d session lost completions = some next) :
    next.streams.map Incoming.arrival = side.streams.map Incoming.arrival := by
  cases lost with
  | some error =>
      cases poll_lost polled
      rfl
  | none =>
      refine pollPending_rule
        (fun now => now.streams = side.streams)
        (fun now => now.streams.map Incoming.arrival = side.streams.map Incoming.arrival)
        ?_ ?_ ?_ polled rfl
      · intro now id _ _ kept _ _ _
        exact kept
      · intro now id recv kept _ decoded
        apply List.ext_getElem?
        intro other
        rw [Side.deliver, kept, List.getElem?_map, List.getElem?_map, List.getElem?_modify]
        cases found : side.streams[other]? with
        | none => rfl
        | some stream =>
            by_cases same : id = other
            · subst same
              rw [← kept] at found
              rw [decode_eq found] at decoded
              obtain ⟨header, rest, _, _, rfl⟩ := Direction.header_of_decode decoded
              simp [Incoming.arrival]
            · simp [same]
      · intro now kept _
        exact congrArg _ kept

theorem arrival_found (same : next.streams.map Incoming.arrival = side.streams.map Incoming.arrival)
    (found : side.streams[id]? = some stream) :
    ∃ after, next.streams[id]? = some after ∧ after.arrival = stream.arrival := by
  have arrival := congrArg (fun arrivals => arrivals[id]?) same
  simp only [List.getElem?_map, found, Option.map_some] at arrival
  exact Option.map_eq_some_iff.mp arrival

/-- A poll is always possible: the loop ends, and no header makes it fail. -/
theorem exists_pollPending (known : ∀ id ∈ side.pending, id < side.streams.length) :
    ∃ completions next, side.pollPending d session completions = some next := by
  induction size : side.pending.length generalizing side with
  | zero =>
      have empty := List.length_eq_zero_iff.mp size
      have waiting : ∀ id ∈ side.pending, side.decode d session id = .pending := by
        rw [empty]
        exact List.forall_mem_nil _
      exact ⟨[], { side with polled := some .pending }, by rw [pollPending, if_pos waiting]⟩
  | succ count ih =>
      by_cases waiting : ∀ id ∈ side.pending, side.decode d session id = .pending
      · exact ⟨[], { side with polled := some .pending }, by rw [pollPending, if_pos waiting]⟩
      · simp only [not_forall] at waiting
        obtain ⟨id, member, finished⟩ := waiting
        have safe : side.decode d session id ≠ .panicked := by
          rw [decode_eq (List.getElem?_eq_getElem (known id member))]
          exact Direction.decode_ne_panicked
        by_cases other : ∀ recv, side.decode d session id ≠ .done .webtransport recv
        · obtain ⟨qpackDecoder, qpackEncoder, continues⟩ := pollPending_drop member safe finished other
          have fewer : (side.drop id).pending.length = count :=
            (List.length_erase_of_mem member).trans (by omega)
          have still : ∀ other ∈ (side.drop id).pending, other < side.streams.length :=
            fun other inside => known other (List.mem_of_mem_erase inside)
          obtain ⟨completions, next, polled⟩ :=
            @ih { side.drop id with qpackDecoder, qpackEncoder } still fewer
          exact ⟨id :: completions, next, by rw [continues, polled]⟩
        · obtain ⟨recv, decoded⟩ := not_forall_not.mp other
          refine ⟨[id], side.deliver id recv, ?_⟩
          rw [pollPending, if_pos member, decoded]
          exact if_pos rfl

theorem Valid.delivered_le (valid : side.Valid d session) : side.delivered.length ≤ side.streams.length := by
  have within : side.delivered ⊆ List.range side.streams.length := by
    intro id member
    exact List.mem_range.mpr (valid.known id (delivered_tracked member))
  have fewer := (List.subperm_of_subset valid.delivered_nodup within).length_le
  rwa [List.length_range] at fewer

/-- A stream that is reset before it is delivered. -/
def LostBefore (id : Nat) (side : Side backend) : Prop :=
  id ∉ side.delivered ∧ ∃ stream, side.streams[id]? = some stream ∧ stream.WasReset

theorem LostBefore.network {event : NetworkEvent} (gone : side.LostBefore id)
    (happened : side.network event = some next) : next.LostBefore id := by
  obtain ⟨outside, stream, found, reset⟩ := gone
  rcases network_cases happened with ⟨_, rfl⟩ | ⟨other, before, effect, was, isOpen, _, rfl⟩
  · refine ⟨outside, stream, ?_, reset⟩
    rw [List.getElem?_append_left (List.getElem?_eq_some_iff.mp found).1, found]
  · have differs : other ≠ id := by
      intro same
      rw [same, found] at was
      cases was
      exact Incoming.not_wasReset_of_waiting isOpen reset
    refine ⟨outside, stream, ?_, reset⟩
    rw [List.getElem?_modify_ne _ _ differs, found]

theorem LostBefore.poll {completions : List Nat} (valid : side.Valid d session) (gone : side.LostBefore id)
    (polled : side.poll d session lost completions = some next) : next.LostBefore id := by
  cases lost with
  | some error =>
      cases poll_lost polled
      exact gone
  | none =>
      refine pollPending_rule (fun now => now.Valid d session ∧ now.LostBefore id) (LostBefore id)
        ?_ ?_ ?_ polled ⟨valid.takeQueued, gone⟩
      · intro now dropped qpackDecoder qpackEncoder kept member finished other
        obtain ⟨valid, gone⟩ := kept
        exact ⟨(valid.drop member finished other).of_perm (.refl _) rfl rfl, gone⟩
      · intro now delivered recv kept member decoded
        obtain ⟨valid, outside, stream, found, reset⟩ := kept
        obtain ⟨other, known, unread⟩ := valid.pending_found member
        rw [decode_eq known] at decoded
        have differs : delivered ≠ id := by
          intro same
          rw [same, found] at known
          cases known
          exact unread.not_wasReset decoded reset
        refine ⟨?_, stream, ?_, reset⟩
        · intro inside
          rcases List.mem_append.mp inside with earlier | now
          · exact outside earlier
          · exact differs (List.mem_singleton.mp now).symm
        · rw [Side.deliver, List.getElem?_modify_ne _ _ differs, found]
      · intro now kept _
        exact kept.2

end Side

section Runs

variable {s t next : State backend} {event : Event backend} {events : List (Event backend)}

def State.Valid (session : VarInt) (s : State backend) : Prop :=
  ∀ d, (s.side d).Valid d session

theorem step_valid (valid : s.Valid session) (stepped : step session s event = some next) :
    next.Valid session :=
  step_sides (fun d side => side.Valid d session) (fun valid happened => valid.network happened)
    (fun valid polled => valid.poll polled) valid stepped

theorem start_valid : (start : State backend).Valid session := by
  intro d
  cases d <;> exact Side.valid_empty

theorem run_lostBefore {id : Nat} (valid : s.Valid session) (gone : (s.side d).LostBefore id)
    (ran : run (step session) s events = some t) : (t.side d).LostBefore id := by
  have step_keeps : ∀ {state : State backend} {event next},
      (∀ other, (state.side other).Valid other session ∧ (other = d → (state.side other).LostBefore id)) →
      step session state event = some next →
      ∀ other, (next.side other).Valid other session ∧ (other = d → (next.side other).LostBefore id) := by
    intro state event next kept stepped
    refine step_sides (fun other side => side.Valid other session ∧ (other = d → side.LostBefore id))
      ?_ ?_ kept stepped
    · intro other side happening after kept happened
      exact ⟨kept.1.network happened, fun same => (kept.2 same).network happened⟩
    · intro other side lost completions after kept polled
      exact ⟨kept.1.poll polled, fun same => (kept.2 same).poll kept.1 polled⟩
  have kept := run_invariant step_keeps (fun other => ⟨valid other, fun same => same ▸ gone⟩) ran
  exact (kept d).2 rfl

theorem exists_poll (valid : s.Valid session) (d : Direction) (isOpen : s.lost = none) :
    ∃ completions next, step session s (.poll d completions) = some next := by
  have known : ∀ id ∈ (s.side d).takeQueued.pending, id < (s.side d).takeQueued.streams.length :=
    fun id member => (valid d).takeQueued.known id (Side.pending_tracked member)
  obtain ⟨completions, side, polled⟩ := @Side.exists_pollPending backend d session _ known
  refine ⟨completions, s.setSide side d, step_poll d completions ?_⟩
  rw [isOpen, Side.poll]
  exact polled

theorem run_delivered {id : Nat} (member : id ∈ (s.side d).delivered)
    (ran : run (step session) s events = some t) : id ∈ (t.side d).delivered := by
  have step_keeps : ∀ {state : State backend} {event next},
      (∀ other, other = d → id ∈ (state.side other).delivered) → step session state event = some next →
      ∀ other, other = d → id ∈ (next.side other).delivered := by
    intro state event next kept stepped
    refine step_sides (fun other side => other = d → id ∈ side.delivered) ?_ ?_ kept stepped
    · intro other side happening after kept happened
      rcases Side.network_cases happened with ⟨_, rfl⟩ | ⟨_, _, _, _, _, _, rfl⟩ <;> exact kept
    · intro other side lost completions after kept polled same
      exact Side.poll_delivered polled (kept same)
  exact run_invariant step_keeps (fun other same => same ▸ member) ran d rfl

/-- Polls alone deliver every complete stream: as long as one is left, each
poll delivers one. -/
theorem polls_deliver {polls : List (List Nat)} (valid : s.Valid session) (isOpen : s.lost = none)
    (enough : (s.side d).streams.length < (s.side d).delivered.length + polls.length)
    (ran : run (step session) s (polls.map (.poll d)) = some t) {id : Nat} {stream : Incoming}
    (found : (s.side d).streams[id]? = some stream) (complete : stream.Complete d session) :
    id ∈ (t.side d).delivered := by
  induction polls generalizing s stream with
  | nil =>
      have := (valid d).delivered_le
      simp only [List.length_nil] at enough
      omega
  | cons completions polls ih =>
      rw [List.map_cons] at ran
      obtain ⟨next, stepped, ran⟩ := run_cons_eq_some ran
      obtain ⟨polled, lost, _⟩ := step_poll_cases stepped
      have arrivals := Side.poll_arrivals polled
      obtain ⟨after, foundAfter, same⟩ := Side.arrival_found arrivals found
      have completeAfter := (Incoming.Complete.congr same).mpr complete
      have validAfter := step_valid valid stepped
      have count : (next.side d).streams.length = (s.side d).streams.length := by
        have := congrArg List.length arrivals
        rwa [List.length_map, List.length_map] at this
      rw [isOpen] at polled lost
      cases Side.poll_outcome polled with
      | parked _ emptied waiting _ =>
          exact run_delivered ((validAfter d).complete_delivered emptied waiting foundAfter completeAfter) ran
      | ready other _ delivered =>
          refine ih validAfter lost ?_ ran foundAfter completeAfter
          rw [count, delivered, List.length_append, List.length_singleton]
          simp only [List.length_cons] at enough
          omega

end Runs

end Webtrans.Session.Accept
