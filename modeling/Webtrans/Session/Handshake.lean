import Webtrans.Data.Pipe
import Webtrans.Data.Transition
import Webtrans.Proto.Messages
import Webtrans.Session.Established
import Mathlib.Logic.Function.Basic

namespace Webtrans.Session.Handshake

open Webtrans.Data Webtrans.Proto

/-! The handshake of a client and a server over one QUIC connection:
`Session::connect` against `Request::accept` and what the application does with
the request (`settings.rs`, `connect.rs`, `server.rs` and `session.rs` of both
backends).  A step is what one party does between two awaits, or what the
transport does. -/

inductive Party where
  | client
  | server
deriving DecidableEq, Repr

def Party.peer : Party → Party
  | client => server
  | server => client

/-- The streams of the handshake, one for each message. -/
inductive Lane where
  | control (party : Party)
  | request
  | response
deriving DecidableEq, Repr

def Lane.sender : Lane → Party
  | control party => party
  | request => .client
  | response => .server

inductive SettingsError (backend : Backend) where
  | protoError (error : Proto.SettingsError)
  | webTransportUnsupported
  | connectionError (error : ConnectionError backend)

inductive ConnectError (backend : Backend) (url : UrlCrate) (http : HttpCrate) where
  | protoError (error : Proto.ConnectError url http)
  | connectionError (error : ConnectionError backend)
  | errorStatus (status : http.StatusCode)

/-- The `ClientError` and the `ServerError` of a handshake that failed. -/
inductive HandshakeError (backend : Backend) (url : UrlCrate) (http : HttpCrate) where
  | settingsError (error : SettingsError backend)
  | connectError (error : ConnectError backend url http)

/-- `Settings::open`. -/
inductive Opening where
  | openUni
  | write
  | returned
deriving DecidableEq, Repr

/-- `Settings::accept`. -/
inductive Accepting where
  | acceptUni
  | read
  | returned
deriving DecidableEq, Repr

/-- The two halves of `Settings::connect`, joined by `try_join!`. -/
structure Exchange where
  send : Opening := .openUni
  recv : Accepting := .acceptUni
deriving DecidableEq, Repr

def Exchange.Joined (exchange : Exchange) : Prop :=
  exchange.send = .returned ∧ exchange.recv = .returned

instance (exchange : Exchange) : Decidable exchange.Joined :=
  inferInstanceAs (Decidable (_ ∧ _))

section Phases

variable (backend : Backend) (url : ClientUrlCrate) (http : StatusCrate)

/-- `Session::connect`. -/
inductive Client where
  /-- In `Settings::connect`, and in `open_bi` when its two halves have returned. -/
  | settings
  | writeRequest (id : VarInt)
  | readResponse (id : VarInt)
  | connected (session : Established url.toUrlCrate)
  | failed (error : HandshakeError backend url.toUrlCrate http.toHttpCrate)
  | cancelled

/-- What the application does with a request: `Request::ok`, `Request::close`,
or dropping it unanswered in a Tokio runtime.  Outside of one a dropped request
is only logged and gets no response, which is left out. -/
inductive Answer where
  | ok
  | close (status : http.StatusCode)
  | drop

/-- `Request::accept`, and the answer of the application. -/
inductive Server where
  /-- In `Settings::connect`, and in `accept_bi` when its two halves have returned. -/
  | settings
  | readRequest (id : VarInt)
  | request (id : VarInt) (request : ConnectRequest url.toUrlCrate)
  | respond (id : VarInt) (request : ConnectRequest url.toUrlCrate)
  | accepted (session : Established url.toUrlCrate)
  /-- `reject` awaits `stopped`. -/
  | stopping
  | rejected
  | failed (error : HandshakeError backend url.toUrlCrate http.toHttpCrate)
  /-- The response was cut short, by an error of its write or by the caller. -/
  | respondFailed (error : Option (HandshakeError backend url.toUrlCrate http.toHttpCrate))
  | cancelled

structure State where
  client : Client backend url http := .settings
  server : Server backend url http := .settings
  exchange : Party → Exchange := fun _ => {}
  /-- The stream ID of the CONNECT stream. -/
  id : Option VarInt := none
  answered : Option (Answer http) := none
  pipe : Lane → Pipe IoError := fun _ => {}
  /-- The connection as each party sees it, and what its streams then report. -/
  lost : Party → Option (ConnectionError backend × IoError) := fun _ => none
  /-- The code and reason that the guard of a handshake closed the connection with. -/
  guarded : Party → Option (Nat × List UInt8) := fun _ => none

inductive Event where
  | openUni (party : Party)
  | acceptUni (party : Party)
  | readSettings (party : Party)
  | openBi (id : VarInt)
  | acceptBi
  | readRequest
  | answer (answer : Answer http)
  | readResponse
  | stopped
  /-- `write_all_buf` goes on where the transport accepts bytes of a message. -/
  | write (lane : Lane) (count : Nat)
  | deliver (lane : Lane) (count : Nat)
  | deliverEnd (lane : Lane)
  /-- The writer learns that the reader's end is gone. -/
  | stop (lane : Lane) (io : IoError)
  | lose (party : Party) (error : ConnectionError backend) (io : IoError)
  /-- A future of the handshake is dropped, by a timeout or by its caller. -/
  | cancel (party : Party)

/-- What the two parties bring along: the URL of the client, and the orders
that their hash maps have. -/
structure Setup where
  request : ConnectRequest url.toUrlCrate
  requestOrder : request.headers.Iteration
  settingsOrder : Party → ((∅ : Settings).enableWebtransport 1).Iteration
  responseOrder : ∀ response : ConnectResponse http.toHttpCrate, response.headers.Iteration
  iterate : Party → ∀ headers : Qpack.Headers, headers.Iteration

end Phases

variable {backend : Backend} {url : ClientUrlCrate} {http : StatusCrate}

def Answer.status : Answer http → http.StatusCode
  | ok => http.ok
  | close status => status
  | drop => http.internalServerError

/-- How `connect` ends without a session: with an error, or dropped. -/
def Client.ended : Option (HandshakeError backend url.toUrlCrate http.toHttpCrate) → Client backend url http
  | some error => failed error
  | none => cancelled

def Server.ended : Option (HandshakeError backend url.toUrlCrate http.toHttpCrate) → Server backend url http
  | some error => failed error
  | none => cancelled

namespace Setup

variable (setup : Setup url http)

/-- The length fits its varint (`Settings.encode_eq`). -/
def settingsBytes (party : Party) : List UInt8 :=
  (Settings.encode (setup.settingsOrder party)).getD []

def requestBytes : List UInt8 :=
  setup.request.encode setup.requestOrder

def responseBytes (answer : Answer http) : List UInt8 :=
  ConnectResponse.encode { status := answer.status } (setup.responseOrder { status := answer.status })

end Setup

/-- Bytes of the stream have arrived, or its end: the peer can accept it. -/
def announced (pipe : Pipe IoError) : Bool :=
  !pipe.recv.bytes.isEmpty || decide (pipe.recv.ending = .finished)

namespace State

variable (s : State backend url http)

/-- The party has not got past the settings. -/
def starting : Party → Bool
  | .client =>
      match s.client with
      | .settings => true
      | _ => false
  | .server =>
      match s.server with
      | .settings => true
      | _ => false

/-- The future of `connect` or `accept` is there: it can fail, and be dropped. -/
def active : Party → Bool
  | .client =>
      match s.client with
      | .settings | .writeRequest _ | .readResponse _ => true
      | _ => false
  | .server =>
      match s.server with
      | .settings | .readRequest _ => true
      | _ => false

/-- The party has ended the handshake and keeps none of its streams. -/
def departed : Party → Bool
  | .client =>
      match s.client with
      | .failed _ | .cancelled => true
      | _ => false
  | .server =>
      match s.server with
      | .rejected | .failed _ | .respondFailed _ | .cancelled => true
      | _ => false

/-- The sender is in the write of the message. -/
def writing : Lane → Bool
  | .control party => s.starting party && decide ((s.exchange party).send = .write)
  | .request =>
      match s.client with
      | .writeRequest _ => true
      | _ => false
  | .response =>
      match s.server with
      | .respond _ _ => true
      | _ => false

/-- The sender holds its half of the stream. -/
def holds : Lane → Bool
  | .control party => decide ((s.exchange party).send ≠ .openUni)
  | .request => s.id.isSome
  | .response =>
      match s.server with
      | .readRequest _ | .respond _ _ | .stopping => true
      | _ => false

def setExchange (party : Party) (exchange : Exchange) : State backend url http :=
  { s with exchange := Function.update s.exchange party exchange }

def setPipe (lane : Lane) (pipe : Pipe IoError) : State backend url http :=
  { s with pipe := Function.update s.pipe lane pipe }

@[simp] theorem exchange_setExchange (party other : Party) (exchange : Exchange) :
    (s.setExchange party exchange).exchange other = if other = party then exchange else s.exchange other :=
  Function.update_apply _ _ _ _

@[simp] theorem pipe_setPipe (lane other : Lane) (pipe : Pipe IoError) :
    (s.setPipe lane pipe).pipe other = if other = lane then pipe else s.pipe other :=
  Function.update_apply _ _ _ _

theorem pipe_setPipe_of_ne {lane other : Lane} {pipe : Pipe IoError} (differs : other ≠ lane) :
    (s.setPipe lane pipe).pipe other = s.pipe other := by
  rw [pipe_setPipe, if_neg differs]

@[simp] theorem pipe_setExchange (party : Party) (exchange : Exchange) :
    (s.setExchange party exchange).pipe = s.pipe := rfl

@[simp] theorem exchange_setPipe (lane : Lane) (pipe : Pipe IoError) :
    (s.setPipe lane pipe).exchange = s.exchange := rfl

@[simp] theorem starting_setExchange (party other : Party) (exchange : Exchange) :
    (s.setExchange party exchange).starting other = s.starting other := by
  cases other <;> rfl

@[simp] theorem starting_setPipe (lane : Lane) (pipe : Pipe IoError) (other : Party) :
    (s.setPipe lane pipe).starting other = s.starting other := by
  cases other <;> rfl

/-- Dropping a send stream finishes it. -/
def retire (party : Party) : State backend url http :=
  { s with
    pipe := fun lane => if lane.sender = party ∧ s.holds lane = true then (s.pipe lane).finish else s.pipe lane }

/-- `HandshakeGuard` of Quion is dropped before it was completed. -/
def dropGuard (party : Party) : State backend url http :=
  if backend = .quion ∧ s.lost party = none then
    { s with
      guarded := Function.update s.guarded party (some (0x102, asBytes "WebTransport handshake aborted")) }
  else s

/-- The future of the party is done, and drops all it holds. -/
def leave (party : Party) (error : Option (HandshakeError backend url.toUrlCrate http.toHttpCrate)) :
    State backend url http :=
  match party with
  | .client => { (s.retire .client).dropGuard .client with client := .ended error }
  | .server => { (s.retire .server).dropGuard .server with server := .ended error }

def fail (party : Party) (error : HandshakeError backend url.toUrlCrate http.toHttpCrate) :
    State backend url http :=
  s.leave party (some error)

def respondFailed (error : Option (HandshakeError backend url.toUrlCrate http.toHttpCrate)) :
    State backend url http :=
  { s.retire .server with server := .respondFailed error }

end State

/-! ## Steps -/

def supports (party : Party) (settings : Settings) : Bool :=
  match party with
  | .client => settings.supportsWebtransportServer
  | .server => settings.supportsWebtransportClient

section Steps

variable (setup : Setup url http) (s : State backend url http)

def openUni (party : Party) : Option (State backend url http) :=
  if s.starting party = true ∧ (s.exchange party).send = .openUni then
    match s.lost party with
    | some (error, _) => some (s.fail party (.settingsError (.connectionError error)))
    | none =>
        some ((s.setPipe (.control party) ((s.pipe (.control party)).begin_ (setup.settingsBytes party))).setExchange
          party { s.exchange party with send := .write })
  else none

/-- A stream that has arrived is accepted from a lost connection as well. -/
def acceptUni (party : Party) : Option (State backend url http) :=
  if s.starting party = true ∧ (s.exchange party).recv = .acceptUni then
    if announced (s.pipe (.control party.peer)) then
      some (s.setExchange party { s.exchange party with recv := .read })
    else
      match s.lost party with
      | some (error, _) => some (s.fail party (.settingsError (.connectionError error)))
      | none => none
  else none

def readSettings (party : Party) : Option (State backend url http) :=
  if s.starting party = true ∧ (s.exchange party).recv = .read then
    match Settings.read (s.pipe (.control party.peer)).recv with
    | .failed error => some (s.fail party (.settingsError (.protoError error)))
    | .done settings recv =>
        if supports party settings then
          some ((s.setPipe (.control party.peer) ((s.pipe (.control party.peer)).take recv)).setExchange
            party { s.exchange party with recv := .returned })
        else some (s.fail party (.settingsError .webTransportUnsupported))
    | _ => none
  else none

/-- `Connect::open`. -/
def openBi (id : VarInt) : Option (State backend url http) :=
  if s.starting .client = true ∧ (s.exchange .client).Joined then
    match s.lost .client with
    | some (error, _) => some (s.fail .client (.connectError (.connectionError error)))
    | none =>
        some { s.setPipe .request ((s.pipe .request).begin_ setup.requestBytes) with
          id := some id
          client := .writeRequest id }
  else none

/-- `Connect::accept`. -/
def acceptBi : Option (State backend url http) :=
  if s.starting .server = true ∧ (s.exchange .server).Joined then
    match s.id, announced (s.pipe .request) with
    | some id, true => some { s with server := .readRequest id }
    | _, _ =>
        match s.lost .server with
        | some (error, _) => some (s.fail .server (.connectError (.connectionError error)))
        | none => none
  else none

def readRequest : Option (State backend url http) :=
  match s.server with
  | .readRequest id =>
      match ConnectRequest.read url.toUrlCrate http.toHttpCrate (setup.iterate .server) (s.pipe .request).recv with
      | .failed error => some (s.fail .server (.connectError (.protoError error)))
      | .done request recv =>
          some { s.setPipe .request ((s.pipe .request).take recv) with server := .request id request }
      | _ => none
  | _ => none

def answer (choice : Answer http) : Option (State backend url http) :=
  match s.server with
  | .request id request =>
      some { s.setPipe .response ((s.pipe .response).begin_ (setup.responseBytes choice)) with
        answered := some choice
        server := .respond id request }
  | _ => none

/-- The client looks at the status of the response. -/
def readResponse : Option (State backend url http) :=
  match s.client with
  | .readResponse id =>
      match ConnectResponse.read url.toUrlCrate http.toHttpCrate (setup.iterate .client) (s.pipe .response).recv with
      | .failed error => some (s.fail .client (.connectError (.protoError error)))
      | .done response recv =>
          if response.status ≠ http.ok then
            some (s.fail .client (.connectError (.errorStatus response.status)))
          else
            some { s.setPipe .response ((s.pipe .response).take recv) with
              client := .connected (.new id setup.request.url) }
      | _ => none
  | _ => none

/-- All of the rejection has been acknowledged, or nobody will. -/
def stopped : Option (State backend url http) :=
  match s.server with
  | .stopping =>
      if (s.pipe .response).recv.ending ≠ .waiting ∨ s.lost .server ≠ none ∨ s.departed .client = true then
        some { s.retire .server with server := .rejected }
      else none
  | _ => none

/-- What a party goes on with when it has written a message. -/
def written : Lane → State backend url http
  | .control party => s.setExchange party { s.exchange party with send := .returned }
  | .request =>
      match s.client with
      | .writeRequest id => { s with client := .readResponse id }
      | _ => s
  | .response =>
      match s.server, s.answered with
      | .respond id request, some .ok => { s with server := .accepted (.new id request.url) }
      | _, _ => { s.setPipe .response (s.pipe .response).finish with server := .stopping }

/-- The error of a write on a lost connection, or on a stopped stream. -/
def writeFailed (lane : Lane) (io : IoError) : State backend url http :=
  match lane with
  | .control party => s.fail party (.settingsError (.protoError (.io io)))
  | .request => s.fail .client (.connectError (.protoError (.io io)))
  | .response => s.respondFailed (some (.connectError (.protoError (.io io))))

def write (lane : Lane) (count : Nat) : Option (State backend url http) :=
  if s.writing lane = true then
    match s.lost lane.sender with
    | some (_, io) => some (writeFailed s lane io)
    | none =>
        match (s.pipe lane).write count with
        | none => none
        | some pipe => some (if pipe.buf = [] then written (s.setPipe lane pipe) lane else s.setPipe lane pipe)
  else none

def lose (party : Party) (error : ConnectionError backend) (io : IoError) : Option (State backend url http) :=
  match s.lost party with
  | some _ => none
  | none =>
      some { s with
        lost := Function.update s.lost party (some (error, io))
        pipe := fun lane => if lane.sender = party then s.pipe lane else (s.pipe lane).fail io }

/-- A request that was dropped unanswered is rejected by a task of its own. -/
def cancel (party : Party) : Option (State backend url http) :=
  if s.active party = true then some (s.leave party none)
  else
    match party, s.server, s.answered with
    | .server, .respond _ _, some .ok => some (s.respondFailed none)
    | .server, .respond _ _, some (.close _) => some (s.respondFailed none)
    | .server, .stopping, some (.close _) => some { s.retire .server with server := .rejected }
    | _, _, _ => none

def step : Event backend http → Option (State backend url http)
  | .openUni party => openUni setup s party
  | .acceptUni party => acceptUni s party
  | .readSettings party => readSettings s party
  | .openBi id => openBi setup s id
  | .acceptBi => acceptBi s
  | .readRequest => readRequest setup s
  | .answer choice => answer setup s choice
  | .readResponse => readResponse setup s
  | .stopped => stopped s
  | .write lane count => write s lane count
  | .deliver lane count => ((s.pipe lane).deliver count).map (s.setPipe lane)
  | .deliverEnd lane => (s.pipe lane).deliverEnd.map (s.setPipe lane)
  | .stop lane io =>
      if s.departed lane.sender.peer = true ∧ s.writing lane = true then some (writeFailed s lane io) else none
  | .lose party error io => lose s party error io
  | .cancel party => cancel s party

end Steps

def start : State backend url http := {}

/-! ## What a step can do -/

section Moves

variable (setup : Setup url http) (s : State backend url http)

/-- Why the handshake of a party fails. -/
inductive Fails : Party → HandshakeError backend url.toUrlCrate http.toHttpCrate → Prop where
  | lost {party} (error) (starting : s.starting party = true) (lost : s.lost party ≠ none) : Fails party error
  | write {lane} (error) (active : s.active lane.sender = true) (writing : s.writing lane = true)
      (cause : s.lost lane.sender ≠ none ∨ s.departed lane.sender.peer = true) : Fails lane.sender error
  | settings {party} (error) (starting : s.starting party = true) (reading : (s.exchange party).recv = .read)
      (unread : ∀ settings recv, Settings.read (s.pipe (.control party.peer)).recv = .done settings recv →
        supports party settings = false)
      (finished : Settings.read (s.pipe (.control party.peer)).recv ≠ .pending) : Fails party error
  | request {id} (error) (phase : s.server = .readRequest id) (cause)
      (failed : ConnectRequest.read url.toUrlCrate http.toHttpCrate (setup.iterate .server)
        (s.pipe .request).recv = .failed cause) : Fails .server error
  | response {id} (error) (phase : s.client = .readResponse id) (cause)
      (failed : ConnectResponse.read url.toUrlCrate http.toHttpCrate (setup.iterate .client)
        (s.pipe .response).recv = .failed cause) : Fails .client error
  | status {id response recv} (phase : s.client = .readResponse id)
      (read : ConnectResponse.read url.toUrlCrate http.toHttpCrate (setup.iterate .client)
        (s.pipe .response).recv = .done response recv)
      (refused : response.status ≠ http.ok) :
      Fails .client (.connectError (.errorStatus response.status))

inductive Moves : Event backend http → State backend url http → Prop where
  | fails {event party error} (fails : Fails setup s party error) (ordinary : ∀ party, event ≠ .cancel party) :
      Moves event (s.fail party error)
  | openedUni {party} (starting : s.starting party = true) (unopened : (s.exchange party).send = .openUni)
      (whole : s.lost party = none) :
      Moves (.openUni party)
        ((s.setPipe (.control party) ((s.pipe (.control party)).begin_ (setup.settingsBytes party))).setExchange
          party { s.exchange party with send := .write })
  | acceptedUni {party} (starting : s.starting party = true) (unaccepted : (s.exchange party).recv = .acceptUni) :
      Moves (.acceptUni party) (s.setExchange party { s.exchange party with recv := .read })
  | readSettings {party settings recv} (starting : s.starting party = true)
      (reading : (s.exchange party).recv = .read)
      (read : Settings.read (s.pipe (.control party.peer)).recv = .done settings recv)
      (supported : supports party settings = true) :
      Moves (.readSettings party)
        ((s.setPipe (.control party.peer) ((s.pipe (.control party.peer)).take recv)).setExchange
          party { s.exchange party with recv := .returned })
  | openedBi {id} (starting : s.starting .client = true) (joined : (s.exchange .client).Joined)
      (whole : s.lost .client = none) :
      Moves (.openBi id)
        { s.setPipe .request ((s.pipe .request).begin_ setup.requestBytes) with
          id := some id
          client := .writeRequest id }
  | acceptedBi {id} (starting : s.starting .server = true) (joined : (s.exchange .server).Joined)
      (opened : s.id = some id) : Moves .acceptBi { s with server := .readRequest id }
  | readRequest {id request recv} (phase : s.server = .readRequest id)
      (read : ConnectRequest.read url.toUrlCrate http.toHttpCrate (setup.iterate .server)
        (s.pipe .request).recv = .done request recv) :
      Moves .readRequest
        { s.setPipe .request ((s.pipe .request).take recv) with server := .request id request }
  | answered {id request} (choice : Answer http) (phase : s.server = .request id request) :
      Moves (.answer choice)
        { s.setPipe .response ((s.pipe .response).begin_ (setup.responseBytes choice)) with
          answered := some choice
          server := .respond id request }
  | readResponse {id response recv} (phase : s.client = .readResponse id)
      (read : ConnectResponse.read url.toUrlCrate http.toHttpCrate (setup.iterate .client)
        (s.pipe .response).recv = .done response recv)
      (accepted : response.status = http.ok) :
      Moves .readResponse
        { s.setPipe .response ((s.pipe .response).take recv) with
          client := .connected (.new id setup.request.url) }
  | rejected {event} (phase : s.server = .stopping)
      (cause : (∃ party, event = .cancel party) ∨ (s.pipe .response).recv.ending ≠ .waiting ∨
        s.lost .server ≠ none ∨ s.departed .client = true) :
      Moves event { s.retire .server with server := .rejected }
  | wrote {lane count pipe} (writing : s.writing lane = true) (written : (s.pipe lane).write count = some pipe)
      (more : pipe.buf ≠ []) : Moves (.write lane count) (s.setPipe lane pipe)
  | wroteSettings {party count pipe} (writing : s.writing (.control party) = true)
      (written : (s.pipe (.control party)).write count = some pipe) (all : pipe.buf = []) :
      Moves (.write (.control party) count)
        ((s.setPipe (.control party) pipe).setExchange party { s.exchange party with send := .returned })
  | wroteRequest {id count pipe} (phase : s.client = .writeRequest id)
      (written : (s.pipe .request).write count = some pipe) (all : pipe.buf = []) :
      Moves (.write .request count) { s.setPipe .request pipe with client := .readResponse id }
  | accepted {id request count pipe} (phase : s.server = .respond id request) (ok : s.answered = some .ok)
      (written : (s.pipe .response).write count = some pipe) (all : pipe.buf = []) :
      Moves (.write .response count)
        { s.setPipe .response pipe with server := .accepted (.new id request.url) }
  | refused {id request count pipe} (phase : s.server = .respond id request) (refusal : s.answered ≠ some .ok)
      (written : (s.pipe .response).write count = some pipe) (all : pipe.buf = []) :
      Moves (.write .response count) { s.setPipe .response pipe.finish with server := .stopping }
  | respondFailed {event error} {id request} (phase : s.server = .respond id request)
      (cause : (∃ party, event = .cancel party) ∨ s.lost .server ≠ none ∨ s.departed .client = true) :
      Moves event (s.respondFailed error)
  | delivered {lane count pipe} (delivered : (s.pipe lane).deliver count = some pipe) :
      Moves (.deliver lane count) (s.setPipe lane pipe)
  | deliveredEnd {lane pipe} (delivered : (s.pipe lane).deliverEnd = some pipe) :
      Moves (.deliverEnd lane) (s.setPipe lane pipe)
  | lost {party} (error) (io) (whole : s.lost party = none) :
      Moves (.lose party error io)
        { s with
          lost := Function.update s.lost party (some (error, io))
          pipe := fun lane => if lane.sender = party then s.pipe lane else (s.pipe lane).fail io }
  | cancelled {party} (active : s.active party = true) :
      Moves (.cancel party) (s.leave party none)

end Moves

section Cases

variable {setup : Setup url http} {s next : State backend url http}

theorem active_of_starting {party : Party} (starting : s.starting party = true) : s.active party = true := by
  cases party with
  | client => cases phase : s.client <;> simp_all [State.starting, State.active]
  | server => cases phase : s.server <;> simp_all [State.starting, State.active]

theorem active_of_writing {lane : Lane} (writing : s.writing lane = true) :
    s.active lane.sender = true ∨ ∃ id request, lane = .response ∧ s.server = .respond id request := by
  cases lane with
  | control party =>
      simp only [State.writing, Bool.and_eq_true] at writing
      exact .inl (active_of_starting writing.1)
  | request =>
      cases phase : s.client <;> simp_all [State.writing, State.active, Lane.sender]
  | response =>
      cases phase : s.server with
      | respond id request => exact .inr ⟨id, request, rfl, rfl⟩
      | _ => simp [State.writing, phase] at writing

/-- A write fails with a lost connection, or when the reader is gone. -/
theorem moves_writeFailed {event : Event backend http} {lane : Lane} (io : IoError)
    (writing : s.writing lane = true) (ordinary : ∀ party, event ≠ .cancel party)
    (cause : s.lost lane.sender ≠ none ∨ s.departed lane.sender.peer = true) :
    Moves setup s event (writeFailed s lane io) := by
  rcases active_of_writing writing with active | ⟨id, request, rfl, phase⟩
  · have failing : ∀ error, Fails setup s lane.sender error := fun error => .write error active writing cause
    cases lane with
    | control party => exact .fails (failing _) ordinary
    | request => exact .fails (failing _) ordinary
    | response => cases phase : s.server <;> simp [State.writing, State.active, Lane.sender, phase] at writing active
  · exact .respondFailed phase (.inr cause)

theorem moves_openUni {party : Party} (stepped : openUni setup s party = some next) :
    Moves setup s (.openUni party) next := by
  rw [openUni] at stepped
  split at stepped
  case isTrue enabled =>
    obtain ⟨starting, unopened⟩ := enabled
    cases lost : s.lost party with
    | none =>
        rw [lost] at stepped
        cases stepped
        exact .openedUni starting unopened lost
    | some cause =>
        rw [lost] at stepped
        cases stepped
        exact .fails (.lost _ starting (by simp [lost])) (fun _ => nofun)
  case isFalse => cases stepped

theorem moves_acceptUni {party : Party} (stepped : acceptUni s party = some next) :
    Moves setup s (.acceptUni party) next := by
  rw [acceptUni] at stepped
  split at stepped
  case isTrue enabled =>
    obtain ⟨starting, unaccepted⟩ := enabled
    split at stepped
    case isTrue =>
      cases stepped
      exact .acceptedUni starting unaccepted
    case isFalse =>
      cases lost : s.lost party with
      | none =>
          rw [lost] at stepped
          cases stepped
      | some cause =>
          rw [lost] at stepped
          cases stepped
          exact .fails (.lost _ starting (by simp [lost])) (fun _ => nofun)
  case isFalse => cases stepped

theorem moves_readSettings {party : Party} (stepped : readSettings s party = some next) :
    Moves setup s (.readSettings party) next := by
  rw [readSettings] at stepped
  split at stepped
  case isTrue enabled =>
    obtain ⟨starting, reading⟩ := enabled
    cases read : Settings.read (s.pipe (.control party.peer)).recv with
    | done settings recv =>
        rw [read] at stepped
        dsimp only at stepped
        split at stepped
        case isTrue supported =>
          cases stepped
          exact .readSettings starting reading read supported
        case isFalse unsupported =>
          cases stepped
          refine .fails (.settings _ starting reading ?_ ?_) (fun _ => nofun)
          · intro found after same
            rw [read] at same
            cases same
            simpa using unsupported
          · rw [read]
            exact nofun
    | failed error =>
        rw [read] at stepped
        cases stepped
        refine .fails (.settings _ starting reading ?_ ?_) (fun _ => nofun)
        · intro found after same
          rw [read] at same
          cases same
        · rw [read]
          exact nofun
    | _ =>
        rw [read] at stepped
        cases stepped
  case isFalse => cases stepped

theorem moves_openBi {id : VarInt} (stepped : openBi setup s id = some next) :
    Moves setup s (.openBi id) next := by
  rw [openBi] at stepped
  split at stepped
  case isTrue enabled =>
    obtain ⟨starting, joined⟩ := enabled
    cases lost : s.lost .client with
    | none =>
        rw [lost] at stepped
        cases stepped
        exact .openedBi starting joined lost
    | some cause =>
        rw [lost] at stepped
        cases stepped
        exact .fails (.lost _ starting (by simp [lost])) (fun _ => nofun)
  case isFalse => cases stepped

theorem moves_acceptBi (stepped : acceptBi s = some next) : Moves setup s .acceptBi next := by
  rw [acceptBi] at stepped
  split at stepped
  case isTrue enabled =>
    obtain ⟨starting, joined⟩ := enabled
    split at stepped
    next id opened arrived =>
      cases stepped
      exact .acceptedBi starting joined opened
    next =>
      cases lost : s.lost .server with
      | none =>
          rw [lost] at stepped
          cases stepped
      | some cause =>
          rw [lost] at stepped
          cases stepped
          exact .fails (.lost _ starting (by simp [lost])) (fun _ => nofun)
  case isFalse => cases stepped

theorem moves_readRequest (stepped : readRequest setup s = some next) : Moves setup s .readRequest next := by
  cases phase : s.server with
  | readRequest id =>
      rw [readRequest, phase] at stepped
      dsimp only at stepped
      split at stepped
      next error failed =>
        cases stepped
        exact .fails (.request _ phase _ failed) (fun _ => nofun)
      next request recv read =>
        cases stepped
        exact .readRequest phase read
      next => cases stepped
  | _ =>
      rw [readRequest, phase] at stepped
      cases stepped

theorem moves_readResponse (stepped : readResponse setup s = some next) : Moves setup s .readResponse next := by
  cases phase : s.client with
  | readResponse id =>
      rw [readResponse, phase] at stepped
      dsimp only at stepped
      split at stepped
      next error failed =>
        cases stepped
        exact .fails (.response _ phase _ failed) (fun _ => nofun)
      next response recv read =>
        split at stepped
        case isTrue refused =>
          cases stepped
          exact .fails (.status phase read refused) (fun _ => nofun)
        case isFalse accepted =>
          cases stepped
          exact .readResponse phase read (not_not.mp accepted)
      next => cases stepped
  | _ =>
      rw [readResponse, phase] at stepped
      cases stepped

theorem moves_written {lane : Lane} {count : Nat} {pipe : Pipe IoError} (writing : s.writing lane = true)
    (wrote : (s.pipe lane).write count = some pipe) (all : pipe.buf = []) :
    Moves setup s (.write lane count) (written (s.setPipe lane pipe) lane) := by
  cases lane with
  | control party => exact .wroteSettings writing wrote all
  | request =>
      cases phase : s.client with
      | writeRequest id =>
          have client : (s.setPipe .request pipe).client = .writeRequest id := phase
          have result : written (s.setPipe .request pipe) .request =
              { s.setPipe .request pipe with client := .readResponse id } := by
            simp only [written, client]
          rw [result]
          exact .wroteRequest phase wrote all
      | _ => simp [State.writing, phase] at writing
  | response =>
      cases phase : s.server with
      | respond id request =>
          have server : (s.setPipe .response pipe).server = .respond id request := phase
          by_cases ok : s.answered = some .ok
          · have answered : (s.setPipe .response pipe).answered = some .ok := ok
            have result : written (s.setPipe .response pipe) .response =
                { s.setPipe .response pipe with server := .accepted (.new id request.url) } := by
              simp only [written, server, answered]
            rw [result]
            exact .accepted phase ok wrote all
          · have refusal : (s.setPipe .response pipe).answered ≠ some .ok := ok
            have result : written (s.setPipe .response pipe) .response =
                { s.setPipe .response pipe.finish with server := .stopping } := by
              rw [written, server]
              split
              next answered => exact absurd answered refusal
              next => simp [State.setPipe]
            rw [result]
            exact .refused phase ok wrote all
      | _ => simp [State.writing, phase] at writing

theorem moves_write {lane : Lane} {count : Nat} (stepped : write s lane count = some next) :
    Moves setup s (.write lane count) next := by
  rw [write] at stepped
  split at stepped
  case isTrue writing =>
    cases lost : s.lost lane.sender with
    | some cause =>
        rw [lost] at stepped
        cases stepped
        exact moves_writeFailed _ writing (fun _ => nofun) (.inl (by simp [lost]))
    | none =>
        rw [lost] at stepped
        dsimp only at stepped
        cases wrote : (s.pipe lane).write count with
        | none =>
            rw [wrote] at stepped
            cases stepped
        | some pipe =>
            rw [wrote] at stepped
            cases stepped
            split
            case isTrue all => exact moves_written writing wrote all
            case isFalse more => exact .wrote writing wrote more
  case isFalse => cases stepped

theorem moves_cancel {party : Party} (stepped : cancel s party = some next) :
    Moves setup s (.cancel party) next := by
  unfold cancel at stepped
  split at stepped
  case isTrue active =>
    cases stepped
    exact .cancelled active
  case isFalse idle =>
    split at stepped
    next phase _ =>
      cases stepped
      exact .respondFailed phase (.inl ⟨_, rfl⟩)
    next phase _ =>
      cases stepped
      exact .respondFailed phase (.inl ⟨_, rfl⟩)
    next phase _ =>
      cases stepped
      exact .rejected phase (.inl ⟨_, rfl⟩)
    next => cases stepped

theorem moves_of_step {event : Event backend http} (stepped : step setup s event = some next) :
    Moves setup s event next := by
  cases event with
  | openUni party => exact moves_openUni stepped
  | acceptUni party => exact moves_acceptUni stepped
  | readSettings party => exact moves_readSettings stepped
  | openBi id => exact moves_openBi stepped
  | acceptBi => exact moves_acceptBi stepped
  | readRequest => exact moves_readRequest stepped
  | readResponse => exact moves_readResponse stepped
  | write lane count => exact moves_write stepped
  | cancel party => exact moves_cancel stepped
  | answer choice =>
      cases phase : s.server with
      | request id request =>
          rw [step, answer, phase] at stepped
          cases stepped
          exact .answered choice phase
      | _ =>
          rw [step, answer, phase] at stepped
          cases stepped
  | stopped =>
      cases phase : s.server with
      | stopping =>
          rw [step, stopped, phase] at stepped
          dsimp only at stepped
          split at stepped
          case isTrue cause =>
            cases stepped
            exact .rejected phase (.inr cause)
          case isFalse => cases stepped
      | _ =>
          rw [step, stopped, phase] at stepped
          cases stepped
  | deliver lane count =>
      obtain ⟨pipe, delivered, rfl⟩ := Option.map_eq_some_iff.mp stepped
      exact .delivered delivered
  | deliverEnd lane =>
      obtain ⟨pipe, delivered, rfl⟩ := Option.map_eq_some_iff.mp stepped
      exact .deliveredEnd delivered
  | stop lane io =>
      rw [step] at stepped
      split at stepped
      case isTrue enabled =>
        cases stepped
        exact moves_writeFailed io enabled.2 (fun _ => nofun) (.inr enabled.1)
      case isFalse => cases stepped
  | lose party error io =>
      cases whole : s.lost party with
      | none =>
          rw [step, lose, whole] at stepped
          cases stepped
          exact .lost error io whole
      | some cause =>
          rw [step, lose, whole] at stepped
          cases stepped

end Cases

end Webtrans.Session.Handshake
