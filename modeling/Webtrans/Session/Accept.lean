import Webtrans.Data.Transition
import Webtrans.Proto.RecordReader
import Webtrans.Session.Connection

namespace Webtrans.Session.Accept

open Webtrans.Data Webtrans.Proto

/-! Incoming streams of a session (`SessionAccept` of `session.rs` in both
backends).  A poll of the accept loop holds the lock of the shared state, so
it is one step; what the transport does comes between two polls in any order. -/

inductive Direction where
  | uni
  | bi
deriving DecidableEq, Repr

variable {backend : Backend}

/-- Read the stream header and return the stream type. -/
def decodeUni (recv : ByteStream IoError) (expectedSession : VarInt) :
    Read IoError (SessionError backend) UniStream :=
  (VarInt.read .earlyEof recv).bind (fun _ => .webTransportError .unknownSession) fun typ recv =>
    let typ : UniStream := ⟨typ⟩
    if typ = UniStream.webtransport then
      (VarInt.read .earlyEof recv).bind (fun _ => .webTransportError .unknownSession) fun sessionId recv =>
        if sessionId ≠ expectedSession then .failed (.webTransportError .unknownSession)
        else .done typ recv
    else .done typ recv

/-- Read the stream header and return `some` if it is a WebTransport stream. -/
def decodeBi (recv : ByteStream IoError) (expectedSession : VarInt) :
    Read IoError (SessionError backend) (Option (ByteStream IoError)) :=
  (VarInt.read .earlyEof recv).bind (fun _ => .webTransportError .unknownSession) fun typ recv =>
    if (⟨typ⟩ : Frame) ≠ Frame.webtransport then .done none recv
    else
      (VarInt.read .earlyEof recv).bind (fun _ => .webTransportError .unknownSession) fun sessionId recv =>
        if sessionId ≠ expectedSession then .failed (.webTransportError .unknownSession)
        else .done (some recv) recv

/-- What the accept loop makes of a decoded header. -/
inductive Accepted where
  | webtransport
  | qpackDecoder
  | qpackEncoder
  | ignored
deriving DecidableEq, Repr

namespace Direction

def acceptUni (typ : UniStream) : Accepted :=
  if typ = UniStream.webtransport then .webtransport
  else if typ = UniStream.qpackDecoder then .qpackDecoder
  else if typ = UniStream.qpackEncoder then .qpackEncoder
  else .ignored

def acceptBi : Option (ByteStream IoError) → Accepted
  | some _ => .webtransport
  | none => .ignored

def decode (session : VarInt) (recv : ByteStream IoError) :
    Direction → Read IoError (SessionError backend) Accepted
  | uni => (decodeUni recv session).bind id fun typ recv => .done (acceptUni typ) recv
  | bi => (decodeBi recv session).bind id fun res recv => .done (acceptBi res) recv

/-- The type that announces a WebTransport stream. -/
def typ : Direction → VarInt
  | uni => UniStream.webtransport.typ
  | bi => Frame.webtransport.typ

/-- What becomes of a stream of another type. -/
def foreign (typ : VarInt) : Direction → Accepted
  | uni => acceptUni ⟨typ⟩
  | bi => .ignored

/-- Both directions read headers alike. -/
theorem decode_eq (d : Direction) (session : VarInt) (recv : ByteStream IoError) :
    (d.decode session recv : Read IoError (SessionError backend) Accepted) =
      (VarInt.read .earlyEof recv).bind (fun _ => .webTransportError .unknownSession) fun typ recv =>
        if typ = d.typ then
          (VarInt.read .earlyEof recv).bind (fun _ => .webTransportError .unknownSession)
            fun sessionId recv =>
              if sessionId ≠ session then .failed (.webTransportError .unknownSession)
              else .done .webtransport recv
        else .done (d.foreign typ) recv := by
  cases d with
  | uni =>
      rw [decode, decodeUni]
      cases VarInt.read .earlyEof recv with
      | done found recv =>
          by_cases announced : found = uni.typ
          · have same : (⟨found⟩ : UniStream) = UniStream.webtransport := by rw [announced]; rfl
            simp only [Read.bind_done, if_pos announced, if_pos same]
            cases VarInt.read .earlyEof recv with
            | done sessionId recv =>
                by_cases foreign : sessionId ≠ session
                · simp only [Read.bind_done, if_pos foreign, Read.bind_failed, id_eq]
                · simp only [Read.bind_done, if_neg foreign, acceptUni, if_pos same]
            | _ => rfl
          · have differs : (⟨found⟩ : UniStream) ≠ UniStream.webtransport :=
              fun same => announced (congrArg UniStream.typ same)
            simp only [Read.bind_done, if_neg announced, if_neg differs, foreign]
      | _ => rfl
  | bi =>
      rw [decode, decodeBi]
      cases VarInt.read .earlyEof recv with
      | done found recv =>
          by_cases announced : found = bi.typ
          · have same : (⟨found⟩ : Frame) = Frame.webtransport := by rw [announced]; rfl
            simp only [Read.bind_done, if_pos announced, if_neg (not_not_intro same)]
            cases VarInt.read .earlyEof recv with
            | done sessionId recv =>
                by_cases foreign : sessionId ≠ session
                · simp only [Read.bind_done, if_pos foreign, Read.bind_failed, id_eq]
                · simp only [Read.bind_done, if_neg foreign, acceptBi]
            | _ => rfl
          · have differs : (⟨found⟩ : Frame) ≠ Frame.webtransport :=
              fun same => announced (congrArg Frame.typ same)
            simp only [Read.bind_done, if_neg announced, if_pos differs, foreign, acceptBi]
      | _ => rfl

/-- The header of a session's WebTransport streams, with varints of any
width. -/
def Header (d : Direction) (session : VarInt) (header : List UInt8) : Prop :=
  ∃ typBytes sessionBytes, header = typBytes ++ sessionBytes ∧
    VarInt.decode.Reads typBytes d.typ ∧ VarInt.decode.Reads sessionBytes session

variable {d : Direction} {session : VarInt} {recv after : ByteStream IoError}
  {header more rest : List UInt8}

theorem header_encode : d.Header session (d.typ.encode ++ session.encode) :=
  ⟨_, _, rfl, VarInt.decode_reads_encode _, VarInt.decode_reads_encode _⟩

theorem decode_header (isHeader : d.Header session header) (split : recv.bytes = header ++ rest) :
    (d.decode session recv : Read IoError (SessionError backend) Accepted) =
      .done .webtransport (recv.advance header.length) := by
  obtain ⟨typBytes, sessionBytes, rfl, typReads, sessionReads⟩ := isHeader
  rw [List.append_assoc] at split
  have behind : (recv.advance typBytes.length).bytes = sessionBytes ++ rest := by
    rw [ByteStream.bytes_advance, split, List.drop_left]
  rw [decode_eq, VarInt.read_reads .earlyEof typReads split, Read.bind_done, if_pos rfl,
    VarInt.read_reads .earlyEof sessionReads behind, Read.bind_done, if_neg (not_not_intro rfl),
    ByteStream.advance_advance, List.length_append]

/-- The decode of a stream that is to begin with the header waits, or the
header is there. -/
theorem decode_on_prefix (isHeader : d.Header session header)
    (split : recv.bytes ++ more = header ++ rest) (may : recv.MayBring more) :
    (d.decode session recv : Read IoError (SessionError backend) Accepted) = .pending ∨
      ∃ behind, recv.bytes = header ++ behind := by
  obtain ⟨typBytes, sessionBytes, rfl, typReads, sessionReads⟩ := isHeader
  rw [List.append_assoc] at split
  rcases VarInt.read_on_prefix .earlyEof typReads split may with waits | ⟨view, front, back⟩
  · left
    rw [decode_eq, waits]
    rfl
  · have behind : (recv.advance typBytes.length).bytes = view := by
      rw [ByteStream.bytes_advance, front, List.drop_left]
    rw [← behind] at back
    rcases VarInt.read_on_prefix .earlyEof sessionReads back may with waits | ⟨payload, front', _⟩
    · left
      rw [decode_eq, VarInt.read_reads .earlyEof typReads front, Read.bind_done, if_pos rfl, waits]
      rfl
    · right
      refine ⟨payload, ?_⟩
      rw [front, ← behind, front', List.append_assoc]

theorem foreign_ne_webtransport {typ : VarInt} (differs : typ ≠ d.typ) :
    d.foreign typ ≠ .webtransport := by
  cases d with
  | uni =>
      have other : (⟨typ⟩ : UniStream) ≠ UniStream.webtransport :=
        fun same => differs (congrArg UniStream.typ same)
      rw [foreign, acceptUni, if_neg other]
      split
      · exact nofun
      · split <;> exact nofun
  | bi => exact nofun

theorem header_of_decode
    (decoded : (d.decode session recv : Read IoError (SessionError backend) Accepted) =
      .done .webtransport after) :
    ∃ header rest, d.Header session header ∧ recv.bytes = header ++ rest ∧
      after = recv.advance header.length := by
  rw [decode_eq] at decoded
  obtain ⟨typ, middle, typRead, decoded⟩ := Read.bind_eq_done decoded
  obtain ⟨typBytes, view, typReads, split, rfl⟩ := VarInt.reads_of_read typRead
  by_cases announced : typ = d.typ
  · rw [if_pos announced] at decoded
    obtain ⟨sessionId, last, sessionRead, decoded⟩ := Read.bind_eq_done decoded
    obtain ⟨sessionBytes, rest, sessionReads, behind, rfl⟩ := VarInt.reads_of_read sessionRead
    by_cases foreign : sessionId ≠ session
    · rw [if_pos foreign] at decoded
      cases decoded
    · rw [if_neg foreign] at decoded
      cases decoded
      rw [announced] at typReads
      rw [not_not.mp foreign] at sessionReads
      rw [ByteStream.bytes_advance, split, List.drop_left] at behind
      refine ⟨typBytes ++ sessionBytes, rest, ⟨typBytes, sessionBytes, rfl, typReads, sessionReads⟩, ?_, ?_⟩
      · rw [split, behind, List.append_assoc]
      · rw [ByteStream.advance_advance, List.length_append]
  · rw [if_neg announced] at decoded
    obtain ⟨found, _⟩ := Read.done.inj decoded
    exact absurd found (foreign_ne_webtransport announced)

theorem decode_ne_panicked :
    (d.decode session recv : Read IoError (SessionError backend) Accepted) ≠ .panicked := by
  rw [decode_eq]
  have typSafe := VarInt.read_ne_panicked .earlyEof recv
  cases typRead : VarInt.read .earlyEof recv with
  | panicked => exact absurd typRead typSafe
  | done typ middle =>
      rw [Read.bind_done]
      split
      next =>
        have sessionSafe := VarInt.read_ne_panicked .earlyEof middle
        cases sessionRead : VarInt.read .earlyEof middle with
        | panicked => exact absurd sessionRead sessionSafe
        | done sessionId last =>
            rw [Read.bind_done]
            split <;> exact nofun
        | _ => exact nofun
      next => exact nofun
  | _ => exact nofun

end Direction

/-- A stream that the peer has opened.  A reset discards what has not been
read. -/
structure Incoming where
  /-- Every byte that has arrived on the stream. -/
  arrived : List UInt8 := []
  /-- What its next reader reads. -/
  recv : ByteStream IoError := ⟨[], .waiting⟩
deriving DecidableEq

namespace Incoming

def opened : Incoming := {}

def receive (chunk : List UInt8) (stream : Incoming) : Incoming where
  arrived := stream.arrived ++ chunk
  recv := { stream.recv with chunks := stream.recv.chunks ++ [chunk] }

def finish (stream : Incoming) : Incoming :=
  { stream with recv := { stream.recv with ending := .finished } }

def reset (error : IoError) (stream : Incoming) : Incoming :=
  { stream with recv := ⟨[], .failed error⟩ }

end Incoming

/-- What a poll of the accept loop returns. -/
inductive Polled (backend : Backend) where
  | pending
  | ready (id : Nat)
  | failed (error : SessionError backend)
deriving DecidableEq

/-- The half of `SessionAccept` that one direction uses.  Streams are named by
the order of their arrival. -/
structure Side (backend : Backend) where
  streams : List Incoming := []
  /-- The accept queue of the QUIC connection. -/
  queue : List Nat := []
  /-- The headers that are being decoded. -/
  pending : List Nat := []
  qpackDecoder : Option Nat := none
  qpackEncoder : Option Nat := none
  /-- The streams that the application was given. -/
  delivered : List Nat := []
  /-- The result of the last poll. -/
  polled : Option (Polled backend) := none
deriving DecidableEq

inductive NetworkEvent where
  | arrive
  | receive (id : Nat) (chunk : List UInt8)
  | finish (id : Nat)
  | reset (id : Nat) (error : IoError)
deriving DecidableEq

namespace Side

def change (side : Side backend) (id : Nat) (effect : Incoming → Incoming) : Option (Side backend) :=
  match side.streams[id]? with
  | none => none
  | some stream =>
      if stream.recv.ending = .waiting then some { side with streams := side.streams.modify id effect }
      else none

def network (side : Side backend) : NetworkEvent → Option (Side backend)
  | .arrive =>
      some { side with
        streams := side.streams ++ [.opened], queue := side.queue ++ [side.streams.length] }
  | .receive id chunk => side.change id (Incoming.receive chunk)
  | .finish id => side.change id Incoming.finish
  | .reset id error => side.change id (Incoming.reset error)

def decode (d : Direction) (session : VarInt) (side : Side backend) (id : Nat) :
    Read IoError (SessionError backend) Accepted :=
  match side.streams[id]? with
  | none => .panicked
  | some stream => d.decode session stream.recv

/-- While the queue has streams, the loop starts to decode their headers. -/
def takeQueued (side : Side backend) : Side backend :=
  { side with queue := [], pending := side.pending ++ side.queue }

def drop (side : Side backend) (id : Nat) : Side backend :=
  { side with pending := side.pending.erase id }

def deliver (side : Side backend) (id : Nat) (recv : ByteStream IoError) : Side backend :=
  { side with
    streams := side.streams.modify id fun stream => { stream with recv },
    pending := side.pending.erase id, delivered := side.delivered ++ [id], polled := some (.ready id) }

/-- The loop on an empty queue.  `completions` is the order in which the set of
decodes hands over those that are finished; it has none left to hand over when
the loop stops at `Poll::Pending`. -/
def pollPending (d : Direction) (session : VarInt) : List Nat → Side backend → Option (Side backend)
  | [], side =>
      if ∀ id ∈ side.pending, side.decode d session id = .pending then
        some { side with polled := some .pending }
      else none
  | id :: completions, side =>
      if id ∈ side.pending then
        match side.decode d session id with
        | .pending => none
        | .panicked => none
        | .failed _ => pollPending d session completions (side.drop id)
        | .done .webtransport recv => if completions = [] then some (side.deliver id recv) else none
        | .done .qpackDecoder _ =>
            pollPending d session completions { side.drop id with qpackDecoder := some id }
        | .done .qpackEncoder _ =>
            pollPending d session completions { side.drop id with qpackEncoder := some id }
        | .done .ignored _ => pollPending d session completions (side.drop id)
      else none

/-- `poll_accept_uni` and `poll_accept_bi`.  On a lost connection the queue
ends with the error, which the loop returns at once. -/
def poll (d : Direction) (session : VarInt) (lost : Option (ConnectionError backend))
    (completions : List Nat) (side : Side backend) : Option (Side backend) :=
  match lost with
  | some error =>
      if completions = [] then
        some { side.takeQueued with polled := some (.failed (.fromConnectionError error)) }
      else none
  | none => side.takeQueued.pollPending d session completions

end Side

structure State (backend : Backend) where
  uni : Side backend := {}
  bi : Side backend := {}
  lost : Option (ConnectionError backend) := none
deriving DecidableEq

inductive Event (backend : Backend) where
  | network (d : Direction) (event : NetworkEvent)
  | lose (error : ConnectionError backend)
  | poll (d : Direction) (completions : List Nat)

namespace State

def side (s : State backend) : Direction → Side backend
  | .uni => s.uni
  | .bi => s.bi

def setSide (s : State backend) (side : Side backend) : Direction → State backend
  | .uni => { s with uni := side }
  | .bi => { s with bi := side }

theorem side_setSide (s : State backend) (side : Side backend) (d other : Direction) :
    (s.setSide side d).side other = if other = d then side else s.side other := by
  cases d <;> cases other <;> rfl

@[simp] theorem side_lost (s : State backend) (lost : Option (ConnectionError backend)) (d : Direction) :
    { s with lost }.side d = s.side d := by
  cases d <;> rfl

@[simp] theorem lost_setSide (s : State backend) (side : Side backend) (d : Direction) :
    (s.setSide side d).lost = s.lost := by
  cases d <;> rfl

end State

/-- A lost connection brings nothing more; what has arrived stays readable. -/
def step (session : VarInt) (s : State backend) : Event backend → Option (State backend)
  | .network d event =>
      match s.lost with
      | some _ => none
      | none => ((s.side d).network event).map fun side => s.setSide side d
  | .lose error =>
      match s.lost with
      | some _ => none
      | none => some { s with lost := some error }
  | .poll d completions =>
      ((s.side d).poll d session s.lost completions).map fun side => s.setSide side d

def start : State backend := {}

namespace Side

variable {d : Direction} {session : VarInt} {lost : Option (ConnectionError backend)}
  {side next : Side backend}

/-- What the transport does to a stream that is still open. -/
inductive Changes : (Incoming → Incoming) → Prop where
  | receive (chunk : List UInt8) : Changes (Incoming.receive chunk)
  | finish : Changes Incoming.finish
  | reset (error : IoError) : Changes (Incoming.reset error)

theorem change_cases {id : Nat} {effect : Incoming → Incoming} (happened : side.change id effect = some next) :
    ∃ stream, side.streams[id]? = some stream ∧ stream.recv.ending = .waiting ∧
      next = { side with streams := side.streams.modify id effect } := by
  rw [change] at happened
  split at happened
  next => cases happened
  next stream found =>
    split at happened
    next isOpen =>
      cases happened
      exact ⟨stream, found, isOpen, rfl⟩
    next => cases happened

theorem network_cases {event : NetworkEvent} (happened : side.network event = some next) :
    (event = .arrive ∧ next = { side with
      streams := side.streams ++ [.opened], queue := side.queue ++ [side.streams.length] }) ∨
    ∃ id stream effect, side.streams[id]? = some stream ∧ stream.recv.ending = .waiting ∧
      Changes effect ∧ next = { side with streams := side.streams.modify id effect } := by
  have changed : ∀ {id effect}, Changes effect → side.change id effect = some next →
      ∃ id stream effect, side.streams[id]? = some stream ∧ stream.recv.ending = .waiting ∧
        Changes effect ∧ next = { side with streams := side.streams.modify id effect } := by
    intro id effect changes happened
    obtain ⟨stream, found, isOpen, result⟩ := change_cases happened
    exact ⟨id, stream, effect, found, isOpen, changes, result⟩
  cases event with
  | arrive =>
      cases happened
      exact Or.inl ⟨rfl, rfl⟩
  | receive id chunk => exact Or.inr (changed (.receive chunk) happened)
  | finish id => exact Or.inr (changed .finish happened)
  | reset id error => exact Or.inr (changed (.reset error) happened)

theorem poll_lost {error : ConnectionError backend} {completions : List Nat}
    (polled : side.poll d session (some error) completions = some next) :
    next = { side.takeQueued with polled := some (.failed (.fromConnectionError error)) } := by
  rw [poll] at polled
  split at polled
  next =>
    cases polled
    rfl
  next => cases polled

/-- A finished decode that is not a WebTransport stream leaves the loop running. -/
theorem pollPending_drop {id : Nat} (member : id ∈ side.pending)
    (safe : side.decode d session id ≠ .panicked) (finished : side.decode d session id ≠ .pending)
    (other : ∀ recv, side.decode d session id ≠ .done .webtransport recv) :
    ∃ qpackDecoder qpackEncoder, ∀ completions, side.pollPending d session (id :: completions) =
      pollPending d session completions { side.drop id with qpackDecoder, qpackEncoder } := by
  cases decoded : side.decode d session id with
  | pending => exact absurd decoded finished
  | panicked => exact absurd decoded safe
  | failed error =>
      refine ⟨side.qpackDecoder, side.qpackEncoder, fun completions => ?_⟩
      rw [pollPending, if_pos member, decoded]
      rfl
  | done accepted recv =>
      cases accepted with
      | webtransport => exact absurd decoded (other recv)
      | qpackDecoder =>
          refine ⟨some id, side.qpackEncoder, fun completions => ?_⟩
          rw [pollPending, if_pos member, decoded]
          rfl
      | qpackEncoder =>
          refine ⟨side.qpackDecoder, some id, fun completions => ?_⟩
          rw [pollPending, if_pos member, decoded]
          rfl
      | ignored =>
          refine ⟨side.qpackDecoder, side.qpackEncoder, fun completions => ?_⟩
          rw [pollPending, if_pos member, decoded]
          rfl

/-- What holds through a poll: what each decode that is not delivered keeps,
and what the two ways to stop make of it. -/
theorem pollPending_rule (keeps result : Side backend → Prop)
    (dropped : ∀ {side : Side backend} {id} qpackDecoder qpackEncoder, keeps side → id ∈ side.pending →
      side.decode d session id ≠ .pending → (∀ recv, side.decode d session id ≠ .done .webtransport recv) →
      keeps { side.drop id with qpackDecoder, qpackEncoder })
    (delivered : ∀ {side : Side backend} {id recv}, keeps side → id ∈ side.pending →
      side.decode d session id = .done .webtransport recv → result (side.deliver id recv))
    (parked : ∀ {side : Side backend}, keeps side →
      (∀ id ∈ side.pending, side.decode d session id = .pending) →
      result { side with polled := some .pending })
    {completions : List Nat} (polled : side.pollPending d session completions = some next)
    (initial : keeps side) : result next := by
  induction completions generalizing side with
  | nil =>
      rw [pollPending] at polled
      split at polled
      next waiting =>
        cases polled
        exact parked initial waiting
      next => cases polled
  | cons id completions ih =>
      by_cases member : id ∈ side.pending
      · by_cases safe : side.decode d session id = .panicked
        · simp [pollPending, safe] at polled
        by_cases finished : side.decode d session id = .pending
        · simp [pollPending, finished] at polled
        by_cases other : ∀ recv, side.decode d session id ≠ .done .webtransport recv
        · obtain ⟨qpackDecoder, qpackEncoder, continues⟩ := pollPending_drop member safe finished other
          rw [continues] at polled
          exact ih polled (dropped qpackDecoder qpackEncoder initial member finished other)
        · obtain ⟨recv, decoded⟩ := not_forall_not.mp other
          rw [pollPending, if_pos member, decoded] at polled
          dsimp only at polled
          split at polled
          next =>
            cases polled
            exact delivered initial member decoded
          next => cases polled
      · rw [pollPending, if_neg member] at polled
        cases polled

end Side

section Steps

variable {session : VarInt} {s next : State backend} {event : Event backend}

theorem step_network_cases {d : Direction} {happening : NetworkEvent}
    (stepped : step session s (.network d happening) = some next) :
    s.lost = none ∧ ∃ side, (s.side d).network happening = some side ∧ next = s.setSide side d := by
  rw [step] at stepped
  cases lost : s.lost with
  | some error => simp [lost] at stepped
  | none =>
      rw [lost] at stepped
      obtain ⟨side, happened, rfl⟩ := Option.map_eq_some_iff.mp stepped
      exact ⟨rfl, side, happened, rfl⟩

theorem step_lose_cases {error : ConnectionError backend}
    (stepped : step session s (.lose error) = some next) :
    s.lost = none ∧ next = { s with lost := some error } := by
  rw [step] at stepped
  cases lost : s.lost with
  | some earlier => simp [lost] at stepped
  | none =>
      rw [lost] at stepped
      cases stepped
      exact ⟨rfl, rfl⟩

theorem step_poll_cases {d : Direction} {completions : List Nat}
    (stepped : step session s (.poll d completions) = some next) :
    (s.side d).poll d session s.lost completions = some (next.side d) ∧ next.lost = s.lost ∧
      ∀ other, other ≠ d → next.side other = s.side other := by
  obtain ⟨side, polled, rfl⟩ := Option.map_eq_some_iff.mp stepped
  refine ⟨?_, State.lost_setSide _ _ _, fun other differs => ?_⟩
  · rw [State.side_setSide, if_pos rfl, polled]
  · rw [State.side_setSide, if_neg differs]

theorem step_poll (d : Direction) (completions : List Nat) {side : Side backend}
    (polled : (s.side d).poll d session s.lost completions = some side) :
    step session s (.poll d completions) = some (s.setSide side d) := by
  rw [step, polled]
  rfl

/-- What the transport and the polls keep on a side is kept by every step. -/
theorem step_sides (holds : Direction → Side backend → Prop)
    (network : ∀ {d side happening after}, holds d side →
      Side.network side happening = some after → holds d after)
    (polls : ∀ {d side lost completions after}, holds d side →
      Side.poll d session lost completions side = some after → holds d after)
    (before : ∀ d, holds d (s.side d)) (stepped : step session s event = some next) (d : Direction) :
    holds d (next.side d) := by
  cases event with
  | network moved happening =>
      obtain ⟨_, side, happened, rfl⟩ := step_network_cases stepped
      rw [State.side_setSide]
      split
      next same =>
        subst same
        exact network (before _) happened
      next => exact before d
  | lose error =>
      obtain ⟨_, rfl⟩ := step_lose_cases stepped
      rw [State.side_lost]
      exact before d
  | poll moved completions =>
      obtain ⟨polled, _, elsewhere⟩ := step_poll_cases stepped
      by_cases same : d = moved
      · subst same
        exact polls (before d) polled
      · rw [elsewhere d same]
        exact before d

end Steps

end Webtrans.Session.Accept
