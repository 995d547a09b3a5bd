import Webtrans.Data.Lossy
import Webtrans.Session.Connection
import Webtrans.Session.Established

namespace Webtrans.Session.Datagrams

open Webtrans.Data Webtrans.Proto

/-! The datagrams of a session from one end to the other (`send_datagram`,
`read_datagram` and `max_datagram_size` of `session.rs` in both backends). -/

variable {backend : Backend} {url : UrlCrate}

/-- The transport's error of a datagram that is not sent. -/
inductive SendDatagramError (backend : Backend) where
  /-- The peer does not support datagrams, or they are disabled. -/
  | unsupported
  | tooLarge
  | connectionLost (error : ConnectionError backend)
deriving DecidableEq

structure State (backend : Backend) where
  lost : Option (ConnectionError backend) := none
  /-- `max_datagram_size` of the connection, which follows the path. -/
  mtu : Option Nat := none
  net : Lossy (List UInt8) := {}
  /-- The data of the calls of `send_datagram` that have returned `Ok`. -/
  given : List (List UInt8) := []
  /-- What else the peer has sent on the connection. -/
  foreign : List (List UInt8) := []

inductive Event (backend : Backend) where
  | send (data : List UInt8)
  | foreign (payload : List UInt8)
  | mtu (size : Option Nat)
  | lost (error : ConnectionError backend)
  | lose (index : Nat)
  | deliver (index : Nat)
  | discard (index : Nat)
  | read

/-- The connection takes a datagram that fits. -/
def transportSend (s : State backend) (payload : List UInt8) : Except (SendDatagramError backend) (List UInt8) :=
  match s.lost, s.mtu with
  | some error, _ => .error (.connectionLost error)
  | none, none => .error .unsupported
  | none, some mtu => if payload.length ≤ mtu then .ok payload else .error .tooLarge

/-- The payload that `send_datagram` hands over. -/
def sendDatagram (session : Established url) (s : State backend) (data : List UInt8) :
    Except (SendDatagramError backend) (List UInt8) :=
  if session.headerDatagram ≠ [] then transportSend s (session.headerDatagram ++ data)
  else transportSend s data

/-- What `read_datagram` makes of a datagram of the connection. -/
def readDatagram (session : Established url) (datagram : List UInt8) : Except WebTransportError (List UInt8) :=
  match session.sessionId with
  | some sessionId =>
      match VarInt.decode datagram with
      | .error _ => .error .unknownSession
      | .ok (actualId, rest) => if actualId ≠ sessionId then .error .unknownSession else .ok rest
  | none => .ok datagram

def maxDatagramSize (session : Established url) (s : State backend) : Nat :=
  s.mtu.getD 0 - session.headerDatagram.length

def step (session : Established url) (s : State backend) : Event backend → Option (State backend)
  | .send data =>
      match sendDatagram session s data with
      | .ok payload => some { s with net := s.net.send payload, given := s.given ++ [data] }
      | .error _ => some s
  | .foreign payload =>
      -- A datagram of this session is sent by its own application.
      match readDatagram session payload with
      | .ok _ => none
      | .error _ => some { s with net := s.net.send payload, foreign := s.foreign ++ [payload] }
  | .mtu size => some { s with mtu := size }
  | .lost error =>
      match s.lost with
      | none => some { s with lost := some error }
      | some _ => none
  | .lose index => (s.net.lose index).map fun net => { s with net }
  | .deliver index => if s.lost = none then (s.net.deliver index).map fun net => { s with net } else none
  | .discard index => (s.net.discard index).map fun net => { s with net }
  | .read => s.net.take.map fun net => { s with net }

/-- What the calls of `read_datagram` that took a datagram have returned. -/
def results (session : Established url) (s : State backend) : List (Except WebTransportError (List UInt8)) :=
  s.net.taken.map (readDatagram session)

/-- `Session::new` and `Session::raw` make no other sessions. -/
inductive Made : Established url → Prop where
  | new (sessionId : VarInt) (target : url.Url) : Made (.new sessionId target)
  | raw (target : url.Url) : Made (.raw target)

variable {session : Established url} {s t : State backend} {data payload : List UInt8}

theorem readDatagram_header (made : Made session) (data : List UInt8) :
    readDatagram session (session.headerDatagram ++ data) = .ok data := by
  cases made with
  | new sessionId target =>
      have decoded : VarInt.decode (sessionId.encode ++ data) = .ok (sessionId, data) :=
        VarInt.decode_reads_encode sessionId data
      simp [readDatagram, Established.new, decoded]
  | raw target => rfl

/-- The header goes in front, and the transport takes what is no longer than
its limit. -/
theorem sendDatagram_ok_iff : sendDatagram session s data = .ok payload ↔
    payload = session.headerDatagram ++ data ∧ s.lost = none ∧
      ∃ mtu, s.mtu = some mtu ∧ session.headerDatagram.length + data.length ≤ mtu := by
  have whole : sendDatagram session s data = transportSend s (session.headerDatagram ++ data) := by
    rw [sendDatagram]
    split
    next => rfl
    next empty =>
      rw [not_not.mp empty]
      rfl
  rw [whole, transportSend]
  cases s.lost with
  | some error => simp
  | none =>
      cases s.mtu with
      | none => simp
      | some mtu =>
          by_cases fits : (session.headerDatagram ++ data).length ≤ mtu
          · rw [List.length_append] at fits
            simp [fits, eq_comm]
          · rw [List.length_append] at fits
            simp [fits]

/-- What `max_datagram_size` allows is sent, unless it allows nothing; what it
does not allow is not sent. -/
theorem sendDatagram_max (isOpen : s.lost = none) (data : List UInt8) :
    ((∃ payload, sendDatagram session s data = .ok payload) → data.length ≤ maxDatagramSize session s) ∧
    (0 < maxDatagramSize session s → data.length ≤ maxDatagramSize session s →
      ∃ payload, sendDatagram session s data = .ok payload) := by
  rw [maxDatagramSize]
  constructor
  · rintro ⟨payload, sent⟩
    obtain ⟨_, _, mtu, limit, fits⟩ := sendDatagram_ok_iff.mp sent
    rw [limit, Option.getD_some]
    omega
  · intro some_ fits
    cases limit : s.mtu with
    | none => simp [limit] at some_
    | some mtu =>
        rw [limit, Option.getD_some] at some_ fits
        exact ⟨_, sendDatagram_ok_iff.mpr ⟨rfl, isOpen, mtu, limit, by omega⟩⟩

def readable (session : Established url) (datagram : List UInt8) : Option (List UInt8) :=
  (readDatagram session datagram).toOption

def rejected (session : Established url) (datagram : List UInt8) : Option (List UInt8) :=
  match readDatagram session datagram with
  | .ok _ => none
  | .error _ => some datagram

structure Accounted (session : Established url) (s : State backend) : Prop where
  conserved : s.net.Conserved
  given : s.net.sent.filterMap (readable session) = s.given
  foreign : s.net.sent.filterMap (rejected session) = s.foreign

theorem accounted_start : Accounted session ({} : State backend) where
  conserved := Lossy.conserved_start
  given := rfl
  foreign := rfl

theorem Accounted.moved {net : Lossy (List UInt8)} (accounted : Accounted session s)
    (moved : net.Conserved ∧ net.sent = s.net.sent) : Accounted session { s with net } where
  conserved := moved.1
  given := by rw [← accounted.given, ← moved.2]
  foreign := by rw [← accounted.foreign, ← moved.2]

theorem Accounted.step {event : Event backend} (made : Made session) (accounted : Accounted session s)
    (stepped : step session s event = some t) : Accounted session t := by
  obtain ⟨conserved, given, foreign⟩ := accounted
  cases event with
  | send data =>
      rw [Datagrams.step] at stepped
      split at stepped <;> cases stepped
      next payload sent =>
        obtain ⟨rfl, _⟩ := sendDatagram_ok_iff.mp sent
        have reads := readDatagram_header made data
        refine ⟨conserved.send _, ?_, ?_⟩
        · simp [Lossy.send, List.filterMap_append, given, readable, reads, Except.toOption]
        · simp [Lossy.send, List.filterMap_append, foreign, rejected, reads]
      next => exact ⟨conserved, given, foreign⟩
  | «foreign» payload =>
      rw [Datagrams.step] at stepped
      split at stepped <;> cases stepped
      next error refuses =>
        refine ⟨conserved.send _, ?_, ?_⟩
        · simp [Lossy.send, List.filterMap_append, given, readable, refuses, Except.toOption]
        · simp [Lossy.send, List.filterMap_append, foreign, rejected, refuses]
  | mtu size =>
      cases stepped
      exact ⟨conserved, given, foreign⟩
  | lost error =>
      rw [Datagrams.step] at stepped
      split at stepped <;> cases stepped
      exact ⟨conserved, given, foreign⟩
  | lose index =>
      obtain ⟨net, lost, rfl⟩ := Option.map_eq_some_iff.mp stepped
      exact (Accounted.mk conserved given foreign).moved (conserved.lose lost)
  | deliver index =>
      rw [Datagrams.step] at stepped
      split at stepped
      next =>
        obtain ⟨net, delivered, rfl⟩ := Option.map_eq_some_iff.mp stepped
        exact (Accounted.mk conserved given foreign).moved (conserved.deliver delivered)
      next => cases stepped
  | discard index =>
      obtain ⟨net, discarded, rfl⟩ := Option.map_eq_some_iff.mp stepped
      exact (Accounted.mk conserved given foreign).moved (conserved.discard discarded)
  | read =>
      obtain ⟨net, taken, rfl⟩ := Option.map_eq_some_iff.mp stepped
      exact (Accounted.mk conserved given foreign).moved (conserved.take taken)

theorem Accounted.run {events : List (Event backend)} (made : Made session)
    (ran : Data.run (Datagrams.step session) {} events = some s) : Accounted session s := by
  refine run_invariant ?_ accounted_start ran
  intro state event next accounted stepped
  exact accounted.step made stepped

def delivered (session : Established url) (s : State backend) : List (List UInt8) :=
  (results session s).filterMap Except.toOption

theorem delivered_eq (session : Established url) (s : State backend) :
    delivered session s = s.net.taken.filterMap (readable session) := by
  rw [delivered, results, List.filterMap_map]
  rfl

/-- The network and the reader go on. -/
def Event.Forward : Event backend → Prop
  | deliver _ | read => True
  | _ => False

theorem forward_step {event : Event backend} (stepped : step session s event = some t) (forward : event.Forward) :
    t.net.toGo < s.net.toGo ∧ t.lost = s.lost ∧ t.given = s.given ∧ t.net.lost = s.net.lost := by
  cases event with
  | deliver index =>
      rw [Datagrams.step] at stepped
      split at stepped
      next =>
        obtain ⟨net, delivered, rfl⟩ := Option.map_eq_some_iff.mp stepped
        refine ⟨Lossy.toGo_deliver delivered, rfl, rfl, ?_⟩
        rw [Lossy.deliver] at delivered
        split at delivered <;> cases delivered
        rfl
      next => cases stepped
  | read =>
      obtain ⟨net, taken, rfl⟩ := Option.map_eq_some_iff.mp stepped
      refine ⟨Lossy.toGo_take taken, rfl, rfl, ?_⟩
      rw [Lossy.take] at taken
      split at taken <;> cases taken
      rfl
  | _ => cases forward

theorem emptied_reached (isOpen : s.lost = none) : ∃ t, Reaches (step session) Event.Forward s t ∧
    t.given = s.given ∧ t.net.lost = s.net.lost ∧ t.net.flying = [] ∧ t.net.arrived = [] := by
  have ends := @reaches_of_progress _ _ (step session)
    (fun t => t.lost = none ∧ t.given = s.given ∧ t.net.lost = s.net.lost)
    (fun t => t.net.flying = [] ∧ t.net.arrived = []) Event.Forward (fun t => t.net.toGo) ?_ ?_ ?_ s
    ⟨isOpen, rfl, rfl⟩
  · obtain ⟨t, reached, ⟨_, given, lost⟩, flying, arrived⟩ := ends
    exact ⟨t, reached, given, lost, flying, arrived⟩
  · intro state event next kept stepped forward
    obtain ⟨_, still, given, lost⟩ := forward_step stepped forward
    exact ⟨still.trans kept.1, given.trans kept.2.1, lost.trans kept.2.2⟩
  · intro state event next _ stepped forward
    exact (forward_step stepped forward).1
  · intro state kept
    rcases state.net.progress with emptied | ⟨net, taken⟩ | ⟨net, delivers⟩
    · exact .inl emptied
    · exact .inr ⟨.read, _, trivial, by rw [Datagrams.step, taken]; rfl⟩
    · exact .inr ⟨.deliver 0, _, trivial, by rw [Datagrams.step, if_pos kept.1, delivers]; rfl⟩

/-- Datagrams keep their bounds and their session.  Whatever the network loses
or lets overtake, what was read and what is under way or lost is what was
given to `send_datagram`, each datagram once and whole, and every other read
fails with the peer's foreign datagrams; and while the connection is open all
that was not lost can still arrive. -/
theorem datagrams_agree (made : Made session) {events : List (Event backend)}
    (ran : run (step session) {} events = some s) :
    (delivered session s ++ s.net.arrived.filterMap (readable session) ++ s.net.flying.filterMap (readable session) ++
      s.net.lost.filterMap (readable session)).Perm s.given ∧
    (s.net.taken.filterMap (rejected session) ++ s.net.arrived.filterMap (rejected session) ++
      s.net.flying.filterMap (rejected session) ++ s.net.lost.filterMap (rejected session)).Perm s.foreign ∧
    (s.lost = none → ∃ t, Reaches (step session) Event.Forward s t ∧
      (delivered session t ++ s.net.lost.filterMap (readable session)).Perm s.given) := by
  have accounted := Accounted.run made ran
  refine ⟨?_, ?_, fun isOpen => ?_⟩
  · rw [← accounted.given, delivered_eq]
    exact accounted.conserved.filterMap _
  · rw [← accounted.foreign]
    exact accounted.conserved.filterMap _
  · obtain ⟨t, reached, given, lost, flying, arrived⟩ := emptied_reached isOpen
    refine ⟨t, reached, ?_⟩
    have later : Accounted session t := by
      refine reached.invariant ?_ accounted
      intro state event next accounted stepped
      exact accounted.step made stepped
    have whole := later.conserved.filterMap (readable session)
    rw [later.given, given, lost, flying, arrived] at whole
    rw [delivered_eq]
    simpa using whole

/-- Two datagrams of which the second overtakes the first, a third that does
not fit, and one of another session. -/
def overtaken : List (Event .quinn) :=
  [.mtu (some 3), .send [1], .send [2, 3], .send [4, 5, 6], .foreign [8, 1], .deliver 1, .read, .deliver 1, .read]

def sampleSession : Established ConnectRequest.sampleUrls :=
  .new (VarInt.fromU32 4) ([], [])

theorem datagrams_agree_overtaken : ∃ s t : State .quinn,
    results sampleSession s = [.ok [2, 3], .error .unknownSession] ∧
      s.given = [[1], [2, 3]] ∧
      Reaches (step sampleSession) Event.Forward s t ∧
      (delivered sampleSession t).Perm [[1], [2, 3]] := by
  have reached : (run (step sampleSession) {} overtaken).map (fun s =>
      (results sampleSession s, s.given, s.net.lost, s.lost)) =
      some ([.ok [2, 3], .error .unknownSession], [[1], [2, 3]], [], none) := by
    decide +kernel
  obtain ⟨s, ran, seen⟩ := Option.map_eq_some_iff.mp reached
  simp only [Prod.mk.injEq] at seen
  obtain ⟨read, given, nothing, isOpen⟩ := seen
  obtain ⟨_, _, arrives⟩ := datagrams_agree (.new _ _) ran
  obtain ⟨t, reached, whole⟩ := arrives isOpen
  rw [given, nothing, List.filterMap_nil, List.append_nil] at whole
  exact ⟨s, t, read, given, reached, whole⟩

end Webtrans.Session.Datagrams
