import Mathlib.Logic.Function.Basic
import Webtrans.Session.Demultiplexing
import Webtrans.Session.Established

namespace Webtrans.Session.Opening

open Webtrans.Data Webtrans.Proto Webtrans.Session.Accept

/-! The streams that one end of a session opens and the other accepts: `open_uni`,
`open_bi` and `write_full` of `session.rs` in both backends, with the streams of
`send.rs` and `recv.rs` and what the transport does between them. -/

/-- The transport's error of a write, as far as `write_full` looks into it. -/
inductive WriteFailure (backend : Backend) where
  | connectionLost (error : ConnectionError backend)
  | other (cause : String)
deriving DecidableEq

inductive OpenError (backend : Backend) where
  | session (error : SessionError backend)
  /-- `WebTransportError::WriteError` -/
  | writeError (cause : String)
deriving DecidableEq

/-- `write_full` on a write that fails. -/
def writeFull {backend : Backend} : WriteFailure backend → OpenError backend
  | .connectionLost error => .session (.fromConnectionError error)
  | .other cause => .writeError cause

/-- How far `open_uni` or `open_bi` is with a stream. -/
inductive Call (backend : Backend) where
  /-- In `write_full`, which has this part of the header to go. -/
  | writing (header : List UInt8)
  | returned
  | failed (error : OpenError backend)
  | cancelled
deriving DecidableEq

/-- `write_all` is done when nothing is left. -/
def Call.go {backend : Backend} : List UInt8 → Call backend
  | [] => .returned
  | header => .writing header

/-- `SendStream::with_reliable_prefix`, on a header of this size.  Quinn has no
reliable resets. -/
def reliablePrefix (backend : Backend) (size : Nat) (enabled : Bool) : Option Nat :=
  match backend with
  | .quinn => none
  | .quion => if enabled then some size else none

structure Reset where
  code : VarInt
  /-- The bytes that are delivered in spite of the reset. -/
  reliableSize : Nat
deriving DecidableEq

def resetCode (code : UInt32) : VarInt :=
  ⟨errorToHttp3 code, errorToHttp3_lt code⟩

/-- How the stream ended for its reader. -/
inductive Told where
  | finished
  | reset (code : Option UInt32)
deriving DecidableEq

/-- A stream, and what the applications at its two ends have had of it. -/
structure Channel (backend : Backend) where
  call : Call backend
  /-- Every byte that the application has written. -/
  app : List UInt8 := []
  /-- Every byte that the transport was given. -/
  written : List UInt8 := []
  finished : Bool := false
  reset : Option Reset := none
  /-- How many bytes the transport still carries after a reset. -/
  limit : Option Nat := none
  /-- Every byte that the peer's application has read. -/
  taken : List UInt8 := []
  told : Option Told := none
deriving DecidableEq

namespace Channel

variable {backend : Backend}

def opened (header : List UInt8) : Channel backend where
  call := .go header

/-- `write_all` hands over some of the header, and `open_*` returns in the poll
that hands over the last of it. -/
def writeHeader (count : Nat) (channel : Channel backend) : Option (Channel backend) :=
  match channel.call with
  | .writing header =>
      if 0 < count ∧ count ≤ header.length then
        some { channel with call := .go (header.drop count), written := channel.written ++ header.take count }
      else none
  | _ => none

/-- A call that ends otherwise drops the stream, which finishes it. -/
def abandon (call : Call backend) (channel : Channel backend) : Option (Channel backend) :=
  match channel.call with
  | .writing _ => some { channel with call, finished := true }
  | _ => none

def write (bytes : List UInt8) (channel : Channel backend) : Option (Channel backend) :=
  if channel.call = .returned ∧ channel.finished = false ∧ channel.reset = none then
    some { channel with app := channel.app ++ bytes, written := channel.written ++ bytes }
  else none

/-- `SendStream::finish`, and dropping the stream. -/
def finish (channel : Channel backend) : Option (Channel backend) :=
  if channel.call = .returned ∧ channel.reset = none then some { channel with finished := true } else none

/-- `SendStream::reset`: `reset_at` on a stream with a reliable prefix. -/
def abort (reliable : Option Nat) (code : UInt32) (channel : Channel backend) : Option (Channel backend) :=
  if channel.call = .returned ∧ channel.reset = none then
    some { channel with reset := some ⟨resetCode code, reliable.getD 0⟩ }
  else none

def carried (channel : Channel backend) : Nat :=
  channel.limit.getD channel.written.length

/-- After a reset the transport stops to carry what it need not deliver. -/
def discard (arrived : Nat) (channel : Channel backend) : Option (Channel backend) :=
  match channel.reset with
  | none => none
  | some reset =>
      if max arrived reset.reliableSize < channel.carried then
        some { channel with limit := some (max arrived reset.reliableSize) }
      else none

/-- The peer hears of a stream by its first byte or its end. -/
def announced (channel : Channel backend) : Bool :=
  !channel.written.isEmpty || channel.finished || channel.reset.isSome

def receive (id count : Nat) (channel : Channel backend) (incoming : Incoming) : Option NetworkEvent :=
  if 0 < count ∧ incoming.arrived.length + count ≤ channel.carried then
    some (.receive id ((channel.written.drop incoming.arrived.length).take count))
  else none

def receiveEnd (id : Nat) (channel : Channel backend) (incoming : Incoming) : Option NetworkEvent :=
  if channel.finished = true ∧ incoming.arrived.length = channel.written.length then some (.finish id) else none

/-- A reset is reported behind the bytes that are delivered in spite of it. -/
def receiveReset (id : Nat) (error : IoError) (channel : Channel backend) (incoming : Incoming) :
    Option NetworkEvent :=
  match channel.reset with
  | none => none
  | some reset =>
      if reset.reliableSize ≤ incoming.arrived.length - incoming.recv.bytes.length + channel.taken.length then
        some (.reset id error)
      else none

def read (count : Nat) (channel : Channel backend) (incoming : Incoming) : Option (Channel backend) :=
  match incoming.recv.ending with
  | .failed _ => none
  | _ =>
      let unread := incoming.recv.bytes.drop channel.taken.length
      if channel.told = none ∧ 0 < count ∧ count ≤ unread.length then
        some { channel with taken := channel.taken ++ unread.take count }
      else none

/-- A read at the end of the stream, and `received_reset`. -/
def readEnd (channel : Channel backend) (incoming : Incoming) : Option (Channel backend) :=
  match incoming.recv.ending with
  | .waiting => none
  | .finished =>
      if incoming.recv.bytes.length ≤ channel.taken.length then
        some { channel with told := some .finished }
      else none
  | .failed _ =>
      channel.reset.map fun reset =>
        { channel with told := some (.reset (errorFromHttp3 reset.code.intoInner)) }

end Channel

/-- Streams are named by the order in which they are opened, which is also the
order in which the peer meets them. -/
structure State (backend : Backend) where
  channels : Direction → List (Channel backend) := fun _ => []
  accept : Accept.State backend := Accept.start

inductive Event (backend : Backend) where
  | openStream (d : Direction)
  | writeHeader (d : Direction) (id count : Nat)
  | writeFails (d : Direction) (id : Nat) (failure : WriteFailure backend)
  | cancel (d : Direction) (id : Nat)
  | write (d : Direction) (id : Nat) (bytes : List UInt8)
  | finish (d : Direction) (id : Nat)
  | reset (d : Direction) (id : Nat) (code : UInt32)
  | discard (d : Direction) (id : Nat)
  | arrive (d : Direction)
  | receive (d : Direction) (id count : Nat)
  | receiveEnd (d : Direction) (id : Nat)
  | receiveReset (d : Direction) (id : Nat) (error : IoError)
  | lose (error : ConnectionError backend)
  | poll (d : Direction) (completions : List Nat)
  | read (d : Direction) (id count : Nat)
  | readEnd (d : Direction) (id : Nat)

/-- What the transport does on its own. -/
def Event.Carries {backend : Backend} : Event backend → Prop
  | .discard .. | .arrive .. | .receive .. | .receiveEnd .. | .receiveReset .. => True
  | _ => False

namespace State

variable {backend : Backend}

def incoming (s : State backend) (d : Direction) (id : Nat) : Option Incoming :=
  (s.accept.side d).streams[id]?

def arrivedLength (s : State backend) (d : Direction) (id : Nat) : Nat :=
  ((s.incoming d id).map fun incoming => incoming.arrived.length).getD 0

def change (s : State backend) (d : Direction) (id : Nat)
    (effect : Channel backend → Option (Channel backend)) : Option (State backend) :=
  match (s.channels d)[id]? with
  | none => none
  | some channel =>
      (effect channel).map fun channel =>
        { s with channels := Function.update s.channels d ((s.channels d).set id channel) }

def accepting (s : State backend) (session : VarInt) (event : Accept.Event backend) : Option (State backend) :=
  (Accept.step session s.accept event).map fun accept => { s with accept }

def bring (s : State backend) (session : VarInt) (d : Direction) (id : Nat)
    (brings : Channel backend → Incoming → Option NetworkEvent) : Option (State backend) :=
  match (s.channels d)[id]?, s.incoming d id with
  | some channel, some incoming =>
      (brings channel incoming).bind fun event => s.accepting session (.network d event)
  | _, _ => none

/-- Only who was given a stream can read from it. -/
def reading (s : State backend) (d : Direction) (id : Nat)
    (effect : Channel backend → Incoming → Option (Channel backend)) : Option (State backend) :=
  match s.incoming d id with
  | some incoming =>
      if id ∈ (s.accept.side d).delivered then s.change d id fun channel => effect channel incoming else none
  | none => none

end State

/-- One end opens streams under its session, the other accepts them under its
own session ID.  `negotiated` is `reset_stream_at_negotiated`. -/
def step {backend : Backend} {url : UrlCrate} (opener : Established url) (acceptor : VarInt) (negotiated : Bool)
    (s : State backend) : Event backend → Option (State backend)
  | .openStream d =>
      some { s with channels := Function.update s.channels d (s.channels d ++ [.opened (opener.header d)]) }
  | .writeHeader d id count => s.change d id (Channel.writeHeader count)
  | .writeFails d id failure => s.change d id (Channel.abandon (.failed (writeFull failure)))
  | .cancel d id => s.change d id (Channel.abandon .cancelled)
  | .write d id bytes => s.change d id (Channel.write bytes)
  | .finish d id => s.change d id Channel.finish
  | .reset d id code =>
      s.change d id (Channel.abort (reliablePrefix backend (opener.header d).length negotiated) code)
  | .discard d id => s.change d id (Channel.discard (s.arrivedLength d id))
  | .arrive d =>
      if ((s.channels d).drop (s.accept.side d).streams.length).any Channel.announced then
        s.accepting acceptor (.network d .arrive)
      else none
  | .receive d id count => s.bring acceptor d id (Channel.receive id count)
  | .receiveEnd d id => s.bring acceptor d id (Channel.receiveEnd id)
  | .receiveReset d id error => s.bring acceptor d id (Channel.receiveReset id error)
  | .lose error => s.accepting acceptor (.lose error)
  | .poll d completions => s.accepting acceptor (.poll d completions)
  | .read d id count => s.reading d id (Channel.read count)
  | .readEnd d id => s.reading d id Channel.readEnd

def start {backend : Backend} : State backend := {}

section Steps

variable {backend : Backend} {url : UrlCrate} {opener : Established url} {acceptor : VarInt} {negotiated : Bool}
  {s t : State backend} {event : Event backend}

/-- What happens to a stream at the end that opens it. -/
inductive Channel.Writes (reliable : Option Nat) (channel : Channel backend) : Channel backend → Prop where
  | header {header : List UInt8} {count : Nat} (writing : channel.call = .writing header) (positive : 0 < count)
      (fits : count ≤ header.length) : Writes reliable channel
        { channel with call := .go (header.drop count), written := channel.written ++ header.take count }
  | abandoned {header : List UInt8} {call : Call backend} (writing : channel.call = .writing header)
      (ended : (∃ error, call = .failed error) ∨ call = .cancelled) :
      Writes reliable channel { channel with call, finished := true }
  | app (bytes : List UInt8) (returned : channel.call = .returned) (unfinished : channel.finished = false)
      (unreset : channel.reset = none) : Writes reliable channel
        { channel with app := channel.app ++ bytes, written := channel.written ++ bytes }
  | finished (returned : channel.call = .returned) (unreset : channel.reset = none) :
      Writes reliable channel { channel with finished := true }
  | reset (code : UInt32) (returned : channel.call = .returned) (unreset : channel.reset = none) :
      Writes reliable channel { channel with reset := some ⟨resetCode code, reliable.getD 0⟩ }

/-- What happens to it at the other end. -/
inductive Channel.Reads (incoming : Incoming) (channel : Channel backend) : Channel backend → Prop where
  | taken (count : Nat) (unreset : ¬ incoming.WasReset) (untold : channel.told = none) : Reads incoming channel
        { channel with taken := channel.taken ++ (incoming.recv.bytes.drop channel.taken.length).take count }
  | finished (ends : incoming.recv.ending = .finished) (all : incoming.recv.bytes.length ≤ channel.taken.length) :
      Reads incoming channel { channel with told := some .finished }
  | reset {reset : Reset} (ends : incoming.WasReset) (isReset : channel.reset = some reset) :
      Reads incoming channel { channel with told := some (.reset (errorFromHttp3 reset.code.intoInner)) }

/-- What the transport brings of a stream that has arrived. -/
inductive Channel.Brings (id : Nat) (channel : Channel backend) (incoming : Incoming) : NetworkEvent → Prop where
  | bytes {count : Nat} (positive : 0 < count) (fits : incoming.arrived.length + count ≤ channel.carried) :
      Brings id channel incoming (.receive id ((channel.written.drop incoming.arrived.length).take count))
  | finish (finished : channel.finished = true) (all : incoming.arrived.length = channel.written.length) :
      Brings id channel incoming (.finish id)
  | reset {reset : Reset} (error : IoError) (isReset : channel.reset = some reset)
      (behind : reset.reliableSize ≤
        incoming.arrived.length - incoming.recv.bytes.length + channel.taken.length) :
      Brings id channel incoming (.reset id error)

/-- What the transport does on its own. -/
inductive Transports (acceptor : VarInt) (s : State backend) : State backend → Prop where
  | discards {d : Direction} {id : Nat} {channel : Channel backend} {reset : Reset}
      (found : (s.channels d)[id]? = some channel) (isReset : channel.reset = some reset)
      (less : max (s.arrivedLength d id) reset.reliableSize < channel.carried) : Transports acceptor s
        { s with channels := Function.update s.channels d ((s.channels d).set id
          { channel with limit := some (max (s.arrivedLength d id) reset.reliableSize) }) }
  | arrives {d : Direction} {accept : Accept.State backend}
      (announced : ((s.channels d).drop (s.accept.side d).streams.length).any Channel.announced = true)
      (stepped : Accept.step acceptor s.accept (.network d .arrive) = some accept) :
      Transports acceptor s { s with accept }
  | brings {d : Direction} {id : Nat} {channel : Channel backend} {incoming : Incoming} {happening : NetworkEvent}
      {accept : Accept.State backend} (found : (s.channels d)[id]? = some channel)
      (arrived : s.incoming d id = some incoming) (brought : channel.Brings id incoming happening)
      (stepped : Accept.step acceptor s.accept (.network d happening) = some accept) :
      Transports acceptor s { s with accept }

inductive Moves (opener : Established url) (acceptor : VarInt) (negotiated : Bool) (s : State backend) :
    State backend → Prop where
  | opened (d : Direction) : Moves opener acceptor negotiated s
      { s with channels := Function.update s.channels d (s.channels d ++ [.opened (opener.header d)]) }
  | writes {d : Direction} {id : Nat} {channel next : Channel backend}
      (found : (s.channels d)[id]? = some channel)
      (wrote : channel.Writes (reliablePrefix backend (opener.header d).length negotiated) next) :
      Moves opener acceptor negotiated s
        { s with channels := Function.update s.channels d ((s.channels d).set id next) }
  | reads {d : Direction} {id : Nat} {channel next : Channel backend} {incoming : Incoming}
      (found : (s.channels d)[id]? = some channel) (arrived : s.incoming d id = some incoming)
      (given : id ∈ (s.accept.side d).delivered) (read : channel.Reads incoming next) :
      Moves opener acceptor negotiated s
        { s with channels := Function.update s.channels d ((s.channels d).set id next) }
  | transports {next : State backend} (transported : Transports acceptor s next) :
      Moves opener acceptor negotiated s next
  | lost {error : ConnectionError backend} {accept : Accept.State backend}
      (stepped : Accept.step acceptor s.accept (.lose error) = some accept) :
      Moves opener acceptor negotiated s { s with accept }
  | polled {d : Direction} {completions : List Nat} {accept : Accept.State backend}
      (stepped : Accept.step acceptor s.accept (.poll d completions) = some accept) :
      Moves opener acceptor negotiated s { s with accept }

theorem change_cases {d : Direction} {id : Nat} {effect : Channel backend → Option (Channel backend)}
    (changed : s.change d id effect = some t) :
    ∃ channel next, (s.channels d)[id]? = some channel ∧ effect channel = some next ∧
      t = { s with channels := Function.update s.channels d ((s.channels d).set id next) } := by
  rw [State.change] at changed
  split at changed
  next => cases changed
  next channel found =>
    obtain ⟨next, effected, rfl⟩ := Option.map_eq_some_iff.mp changed
    exact ⟨channel, next, found, effected, rfl⟩

theorem reading_cases {d : Direction} {id : Nat} {effect : Channel backend → Incoming → Option (Channel backend)}
    (read : s.reading d id effect = some t) :
    ∃ incoming channel next, s.incoming d id = some incoming ∧ id ∈ (s.accept.side d).delivered ∧
      (s.channels d)[id]? = some channel ∧ effect channel incoming = some next ∧
      t = { s with channels := Function.update s.channels d ((s.channels d).set id next) } := by
  rw [State.reading] at read
  split at read
  next incoming arrived =>
    split at read
    next given =>
      obtain ⟨channel, next, found, effected, result⟩ := change_cases read
      exact ⟨incoming, channel, next, arrived, given, found, effected, result⟩
    next => cases read
  next => cases read

theorem bring_cases {d : Direction} {id : Nat} {brings : Channel backend → Incoming → Option NetworkEvent}
    (brought : s.bring acceptor d id brings = some t) :
    ∃ channel incoming happening accept, (s.channels d)[id]? = some channel ∧ s.incoming d id = some incoming ∧
      brings channel incoming = some happening ∧
      Accept.step acceptor s.accept (.network d happening) = some accept ∧ t = { s with accept } := by
  rw [State.bring] at brought
  split at brought
  next channel incoming found arrived =>
    obtain ⟨happening, brings, accepted⟩ := Option.bind_eq_some_iff.mp brought
    obtain ⟨accept, stepped, rfl⟩ := Option.map_eq_some_iff.mp accepted
    exact ⟨channel, incoming, happening, accept, found, arrived, brings, stepped, rfl⟩
  next => cases brought

theorem Channel.writeHeader_cases {channel next : Channel backend} {count : Nat} {reliable : Option Nat}
    (wrote : channel.writeHeader count = some next) : channel.Writes reliable next := by
  rw [Channel.writeHeader] at wrote
  split at wrote
  next header writing =>
    split at wrote
    next fits =>
      cases wrote
      exact .header writing fits.1 fits.2
    next => cases wrote
  next => cases wrote

theorem Channel.abandon_cases {channel next : Channel backend} {call : Call backend} {reliable : Option Nat}
    (ended : (∃ error, call = .failed error) ∨ call = .cancelled)
    (abandoned : channel.abandon call = some next) : channel.Writes reliable next := by
  rw [Channel.abandon] at abandoned
  split at abandoned
  next header writing =>
    cases abandoned
    exact .abandoned writing ended
  next => cases abandoned

theorem Channel.discard_cases {channel next : Channel backend} {arrived : Nat}
    (discarded : channel.discard arrived = some next) :
    ∃ reset, channel.reset = some reset ∧ max arrived reset.reliableSize < channel.carried ∧
      next = { channel with limit := some (max arrived reset.reliableSize) } := by
  rw [Channel.discard] at discarded
  split at discarded
  next => cases discarded
  next reset isReset =>
    split at discarded
    next less =>
      cases discarded
      exact ⟨reset, isReset, less, rfl⟩
    next => cases discarded

theorem Channel.read_cases {channel next : Channel backend} {incoming : Incoming} {count : Nat}
    (read : channel.read count incoming = some next) : channel.Reads incoming next := by
  rw [Channel.read] at read
  split at read
  next => cases read
  next unreset =>
    simp only at read
    split at read
    next may =>
      cases read
      refine .taken count ?_ may.1
      intro reset
      obtain ⟨error, failed⟩ := reset
      exact unreset error failed
    next => cases read

theorem Channel.readEnd_cases {channel next : Channel backend} {incoming : Incoming}
    (read : channel.readEnd incoming = some next) : channel.Reads incoming next := by
  rw [Channel.readEnd] at read
  split at read
  next => cases read
  next ends =>
    split at read
    next all =>
      cases read
      exact .finished ends all
    next => cases read
  next error failed =>
    obtain ⟨reset, isReset, rfl⟩ := Option.map_eq_some_iff.mp read
    exact .reset ⟨error, failed⟩ isReset

theorem Channel.receiveReset_cases {channel : Channel backend} {incoming : Incoming} {id : Nat} {error : IoError}
    {happening : NetworkEvent} (brings : channel.receiveReset id error incoming = some happening) :
    channel.Brings id incoming happening := by
  rw [Channel.receiveReset] at brings
  split at brings
  next => cases brings
  next reset isReset =>
    split at brings
    next behind =>
      cases brings
      exact .reset error isReset behind
    next => cases brings

theorem transports_of_step (stepped : step opener acceptor negotiated s event = some t) (carries : event.Carries) :
    Transports acceptor s t := by
  cases event with
  | discard d id =>
      obtain ⟨channel, next, found, discarded, rfl⟩ := change_cases stepped
      obtain ⟨reset, isReset, less, rfl⟩ := Channel.discard_cases discarded
      exact .discards found isReset less
  | arrive d =>
      rw [step] at stepped
      split at stepped
      next announced =>
        obtain ⟨accept, accepted, rfl⟩ := Option.map_eq_some_iff.mp stepped
        exact .arrives announced accepted
      next => cases stepped
  | receive d id count =>
      obtain ⟨channel, incoming, happening, accept, found, arrived, brings, accepted, rfl⟩ := bring_cases stepped
      rw [Channel.receive] at brings
      split at brings
      next fits =>
        cases brings
        exact .brings found arrived (.bytes fits.1 fits.2) accepted
      next => cases brings
  | receiveEnd d id =>
      obtain ⟨channel, incoming, happening, accept, found, arrived, brings, accepted, rfl⟩ := bring_cases stepped
      rw [Channel.receiveEnd] at brings
      split at brings
      next ends =>
        cases brings
        exact .brings found arrived (.finish ends.1 ends.2) accepted
      next => cases brings
  | receiveReset d id error =>
      obtain ⟨channel, incoming, happening, accept, found, arrived, brings, accepted, rfl⟩ := bring_cases stepped
      exact .brings found arrived (Channel.receiveReset_cases brings) accepted
  | _ => cases carries

theorem moves_of_step (stepped : step opener acceptor negotiated s event = some t) :
    Moves opener acceptor negotiated s t := by
  cases event with
  | openStream d =>
      cases stepped
      exact .opened d
  | writeHeader d id count =>
      obtain ⟨channel, next, found, wrote, rfl⟩ := change_cases stepped
      exact .writes found (Channel.writeHeader_cases wrote)
  | writeFails d id failure =>
      obtain ⟨channel, next, found, abandoned, rfl⟩ := change_cases stepped
      exact .writes found (Channel.abandon_cases (.inl ⟨_, rfl⟩) abandoned)
  | cancel d id =>
      obtain ⟨channel, next, found, abandoned, rfl⟩ := change_cases stepped
      exact .writes found (Channel.abandon_cases (.inr rfl) abandoned)
  | write d id bytes =>
      obtain ⟨channel, next, found, wrote, rfl⟩ := change_cases stepped
      rw [Channel.write] at wrote
      split at wrote
      next may =>
        cases wrote
        exact .writes found (.app bytes may.1 may.2.1 may.2.2)
      next => cases wrote
  | finish d id =>
      obtain ⟨channel, next, found, wrote, rfl⟩ := change_cases stepped
      rw [Channel.finish] at wrote
      split at wrote
      next may =>
        cases wrote
        exact .writes found (.finished may.1 may.2)
      next => cases wrote
  | reset d id code =>
      obtain ⟨channel, next, found, wrote, rfl⟩ := change_cases stepped
      rw [Channel.abort] at wrote
      split at wrote
      next may =>
        cases wrote
        exact .writes found (.reset code may.1 may.2)
      next => cases wrote
  | discard d id => exact .transports (transports_of_step stepped trivial)
  | arrive d => exact .transports (transports_of_step stepped trivial)
  | receive d id count => exact .transports (transports_of_step stepped trivial)
  | receiveEnd d id => exact .transports (transports_of_step stepped trivial)
  | receiveReset d id error => exact .transports (transports_of_step stepped trivial)
  | lose error =>
      obtain ⟨accept, accepted, rfl⟩ := Option.map_eq_some_iff.mp stepped
      exact .lost accepted
  | poll d completions =>
      obtain ⟨accept, accepted, rfl⟩ := Option.map_eq_some_iff.mp stepped
      exact .polled accepted
  | read d id count =>
      obtain ⟨incoming, channel, next, arrived, given, found, read, rfl⟩ := reading_cases stepped
      exact .reads found arrived given (Channel.read_cases read)
  | readEnd d id =>
      obtain ⟨incoming, channel, next, arrived, given, found, read, rfl⟩ := reading_cases stepped
      exact .reads found arrived given (Channel.readEnd_cases read)

end Steps

end Webtrans.Session.Opening
