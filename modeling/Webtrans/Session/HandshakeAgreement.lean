import Webtrans.Session.Handshake

namespace Webtrans.Session.Handshake

open Webtrans.Data Webtrans.Proto

/-! The two ends of a handshake agree on its outcome, whatever happens to the
connection and to the futures on the way. -/

variable {backend : Backend} {url : ClientUrlCrate} {http : StatusCrate} {setup : Setup url http}

/-! ## The messages -/

/-- What is assumed of the two crates, and of the URL that the client asks for. -/
structure Setup.Lawful (setup : Setup url http) : Prop where
  urls : url.Lawful
  statuses : http.Lawful
  valid : validateUrl url setup.request.url = .ok ()
  fits : (setup.request.headers.encode setup.requestOrder).length ≤ maxConnectFrameSize

def enabledSettings : Settings :=
  ((∅ : Settings).enableWebtransport 1).withoutGrease

theorem supports_enabledSettings (party : Party) : supports party enabledSettings = true := by
  cases party with
  | client => exact Settings.supports_enabled.1
  | server => exact Settings.supports_enabled.2

namespace Setup

theorem settingsBytes_eq (party : Party) :
    setup.settingsBytes party = (Settings.controlStream (setup.settingsOrder party)).bytes := by
  rw [settingsBytes, Settings.encode_eq]
  rfl

theorem settings_receives (party : Party) : Receives Settings.read (setup.settingsBytes party) enabledSettings := by
  rw [settingsBytes_eq]
  exact Settings.enabled_receives _

theorem settingsBytes_ne_nil (party : Party) : setup.settingsBytes party ≠ [] := by
  rw [settingsBytes_eq, ControlStream.bytes]
  intro empty
  have typ : UniStream.control.encode ≠ [] := by decide
  exact typ (List.append_eq_nil_iff.mp empty).1

theorem encodeHeadersFrame_ne_nil (headers : Qpack.Headers) (iteration : headers.Iteration) :
    encodeHeadersFrame headers iteration ≠ [] := by
  rw [encodeHeadersFrame]
  intro empty
  have typ : Frame.headers.encode ≠ [] := by decide
  exact typ (List.append_eq_nil_iff.mp (List.append_eq_nil_iff.mp empty).1).1

variable (lawful : setup.Lawful)

include lawful

theorem request_receives (party : Party) :
    Receives (ConnectRequest.read url.toUrlCrate http.toHttpCrate (setup.iterate party)) setup.requestBytes
      setup.request :=
  ConnectRequest.receives lawful.urls lawful.statuses.tryFrom_connect lawful.valid _ lawful.fits

theorem response_receives (party : Party) (answer : Answer http) :
    Receives (ConnectResponse.read url.toUrlCrate http.toHttpCrate (setup.iterate party))
      (setup.responseBytes answer) { status := answer.status } :=
  ConnectResponse.receives lawful.statuses _ _

end Setup

/-! ## What holds in every state -/

/-- The client in its phase: its stream, whether it has read a response, and
what its session goes back to. -/
def Client.Holds (setup : Setup url http) (id : Option VarInt) (answered : Option (Answer http))
    (response : Pipe IoError) : Client backend url http → Prop
  | .settings => id = none ∧ response.taken = false
  | .writeRequest own | .readResponse own => id = some own ∧ response.taken = false
  | .connected session =>
      (∃ own, id = some own ∧ session = .new own setup.request.url) ∧ response.buf = [] ∧
        ∃ answer, answered = some answer ∧ answer.status = http.ok
  | .failed _ | .cancelled => True

def Server.Holds (setup : Setup url http) (id : Option VarInt) (answered : Option (Answer http))
    (request response : Pipe IoError) : Server backend url http → Prop
  | .settings => answered = none ∧ request.taken = false
  | .readRequest own => id = some own ∧ answered = none ∧ request.taken = false
  | .request own asked => id = some own ∧ asked = setup.request ∧ answered = none
  | .respond own asked => id = some own ∧ asked = setup.request ∧ answered ≠ none
  | .accepted session =>
      (∃ own, id = some own ∧ session = .new own setup.request.url) ∧ answered = some .ok ∧ response.buf = []
  | .stopping | .rejected =>
    id ≠ none ∧ ∃ answer, answered = some answer ∧ answer ≠ .ok ∧ response.buf = []
  | .failed _ | .cancelled => answered = none
  | .respondFailed _ => answered ≠ none ∧ response.buf ≠ []

structure Consistent (setup : Setup url http) (s : State backend url http) : Prop where
  valid : ∀ lane, (s.pipe lane).Valid
  control : ∀ party, (s.pipe (.control party)).sent =
    if (s.exchange party).send = .openUni then none else some (setup.settingsBytes party)
  request : (s.pipe .request).sent = s.id.map fun _ => setup.requestBytes
  response : (s.pipe .response).sent = s.answered.map setup.responseBytes
  unread : ∀ party, (s.exchange party).recv ≠ .returned → (s.pipe (.control party.peer)).taken = false
  writing : ∀ lane, s.writing lane = true → (s.pipe lane).buf ≠ []
  client : s.client.Holds setup s.id s.answered (s.pipe .response)
  server : s.server.Holds setup s.id s.answered (s.pipe .request) (s.pipe .response)

theorem consistent_start : Consistent setup (start : State backend url http) where
  valid _ := Pipe.valid_empty
  control _ := rfl
  request := rfl
  response := rfl
  unread _ _ := rfl
  writing lane writing := by
    cases lane with
    | control party => cases party <;> cases writing
    | request => cases writing
    | response => cases writing
  client := ⟨rfl, rfl⟩
  server := ⟨rfl, rfl⟩

section Frame

variable {id : Option VarInt} {answered : Option (Answer http)} {request request' response response' : Pipe IoError}

theorem Client.Holds.frame {client : Client backend url http} (holds : client.Holds setup id answered response)
    (taken : response'.taken = response.taken) (buf : response.buf = [] → response'.buf = []) :
    client.Holds setup id answered response' := by
  cases client with
  | settings => exact ⟨holds.1, taken.trans holds.2⟩
  | writeRequest own => exact ⟨holds.1, taken.trans holds.2⟩
  | readResponse own => exact ⟨holds.1, taken.trans holds.2⟩
  | connected session => exact ⟨holds.1, buf holds.2.1, holds.2.2⟩
  | failed error => trivial
  | cancelled => trivial

theorem Server.Holds.frame {server : Server backend url http}
    (holds : server.Holds setup id answered request response) (taken : request'.taken = request.taken)
    (buf : (∀ own asked, server ≠ .respond own asked) → response'.buf = response.buf) :
    server.Holds setup id answered request' response' := by
  cases server with
  | settings => exact ⟨holds.1, taken.trans holds.2⟩
  | readRequest own => exact ⟨holds.1, holds.2.1, taken.trans holds.2.2⟩
  | request own asked => exact holds
  | respond own asked => exact holds
  | accepted session => exact ⟨holds.1, holds.2.1, (buf (fun _ _ => nofun)).trans holds.2.2⟩
  | stopping =>
      obtain ⟨opened, answer, found, refused, written⟩ := holds
      exact ⟨opened, answer, found, refused, (buf (fun _ _ => nofun)).trans written⟩
  | rejected =>
      obtain ⟨opened, answer, found, refused, written⟩ := holds
      exact ⟨opened, answer, found, refused, (buf (fun _ _ => nofun)).trans written⟩
  | failed error => exact holds
  | respondFailed error =>
      refine ⟨holds.1, ?_⟩
      rw [buf (fun _ _ => nofun)]
      exact holds.2
  | cancelled => exact holds

theorem Server.Holds.after_open {server : Server backend url http}
    (holds : server.Holds setup none answered request response) (own : VarInt)
    (taken : request'.taken = request.taken) : server.Holds setup (some own) answered request' response := by
  cases server with
  | settings => exact ⟨holds.1, taken.trans holds.2⟩
  | accepted session =>
      obtain ⟨⟨_, lacks, _⟩, _⟩ := holds
      cases lacks
  | stopping => exact absurd rfl holds.1
  | rejected => exact absurd rfl holds.1
  | failed error => exact holds
  | respondFailed error => exact holds
  | cancelled => exact holds
  | _ => cases holds.1

theorem Client.Holds.after_answer {client : Client backend url http} (holds : client.Holds setup id none response)
    (choice : Answer http) (taken : response'.taken = response.taken) :
    client.Holds setup id (some choice) response' := by
  cases client with
  | settings => exact ⟨holds.1, taken.trans holds.2⟩
  | writeRequest own => exact ⟨holds.1, taken.trans holds.2⟩
  | readResponse own => exact ⟨holds.1, taken.trans holds.2⟩
  | connected session =>
      obtain ⟨_, _, _, lacks, _⟩ := holds
      cases lacks
  | failed error => trivial
  | cancelled => trivial

end Frame

section Step

variable {s next : State backend url http}

/-- What the transport does keeps the state consistent, as does a write that
leaves something to write. -/
theorem Consistent.carried (consistent : Consistent setup s) {pipe : Lane → Pipe IoError}
    (carried : ∀ lane, Pipe.Carried (s.pipe lane) (pipe lane))
    (writing : ∀ lane, s.writing lane = true → (pipe lane).buf ≠ [])
    (idle : s.writing .response = false → (pipe .response).buf = (s.pipe .response).buf)
    (lost : Party → Option (ConnectionError backend × IoError)) (guarded : Party → Option (Nat × List UInt8)) :
    Consistent setup { s with pipe, lost, guarded } where
  valid lane := (carried lane).valid (consistent.valid lane)
  control party := (carried _).sent.trans (consistent.control party)
  request := (carried _).sent.trans consistent.request
  response := (carried _).sent.trans consistent.response
  unread party unreturned := (carried _).taken.trans (consistent.unread party unreturned)
  writing := writing
  client := by
    refine consistent.client.frame (carried _).taken ?_
    intro written
    have silent : s.writing .response = false := by
      by_contra writes
      exact consistent.writing .response (by simpa using writes) written
    exact (idle silent).trans written
  server := by
    refine consistent.server.frame (carried _).taken ?_
    intro elsewhere
    apply idle
    cases phase : s.server with
    | respond own asked => exact absurd phase (elsewhere own asked)
    | _ => simp [State.writing, phase]

theorem carried_retire (s : State backend url http) (party : Party) (lane : Lane) :
    Pipe.Carried (s.pipe lane) ((s.retire party).pipe lane) := by
  rw [State.retire]
  dsimp only
  split
  · exact Pipe.carried_finish _
  · exact ⟨rfl, rfl, rfl⟩

theorem buf_retire (s : State backend url http) (party : Party) (lane : Lane) :
    ((s.retire party).pipe lane).buf = (s.pipe lane).buf := by
  rw [State.retire]
  dsimp only
  split <;> rfl

theorem Consistent.retire (consistent : Consistent setup s) (party : Party)
    (guarded : Party → Option (Nat × List UInt8)) :
    Consistent setup { s.retire party with guarded } := by
  refine consistent.carried (carried_retire s party) ?_ ?_ s.lost guarded
  · intro lane writing
    rw [buf_retire]
    exact consistent.writing lane writing
  · intro _
    exact buf_retire s party .response

theorem dropGuard_eq (s : State backend url http) (party : Party) :
    s.dropGuard party = { s with guarded := (s.dropGuard party).guarded } := by
  rw [State.dropGuard]
  split <;> rfl

/-- Who leaves writes no more. -/
theorem Consistent.leave (consistent : Consistent setup s) {party : Party} (active : s.active party = true)
    (error : Option (HandshakeError backend url.toUrlCrate http.toHttpCrate)) :
    Consistent setup (s.leave party error) := by
  cases party with
  | client =>
      obtain ⟨valid, control, request, response, unread, writing, _, server⟩ :=
        consistent.retire .client ((s.retire .client).dropGuard .client).guarded
      rw [State.leave, dropGuard_eq]
      refine ⟨valid, control, request, response, unread, ?_, ?_, server⟩
      · intro lane writes
        apply writing lane
        cases lane with
        | control party =>
            cases party with
            | client => cases error <;> cases writes
            | server => exact writes
        | request => cases error <;> cases writes
        | response => exact writes
      · cases error <;> trivial
  | server =>
      obtain ⟨valid, control, request, response, unread, writing, client, server⟩ :=
        consistent.retire .server ((s.retire .server).dropGuard .server).guarded
      rw [State.leave, dropGuard_eq]
      refine ⟨valid, control, request, response, unread, ?_, client, ?_⟩
      · intro lane writes
        apply writing lane
        cases lane with
        | control party =>
            cases party with
            | client => exact writes
            | server => cases error <;> cases writes
        | request => exact writes
        | response => cases error <;> cases writes
      · have unanswered : s.answered = none := by
          have holds := consistent.server
          cases phase : s.server with
          | settings =>
              rw [phase] at holds
              exact holds.1
          | readRequest own =>
              rw [phase] at holds
              exact holds.2.1
          | _ => simp [State.active, phase] at active
        cases error <;> exact unanswered

theorem Consistent.valid_setPipe (consistent : Consistent setup s) {lane : Lane} {pipe : Pipe IoError}
    (valid : pipe.Valid) (other : Lane) : ((s.setPipe lane pipe).pipe other).Valid := by
  rw [State.pipe_setPipe]
  split
  · exact valid
  · exact consistent.valid other

/-- In one half of the exchange the other half is as before. -/
theorem Consistent.openedUni (consistent : Consistent setup s) {party : Party}
    (unopened : (s.exchange party).send = .openUni) :
    Consistent setup
      ((s.setPipe (.control party) ((s.pipe (.control party)).begin_ (setup.settingsBytes party))).setExchange
        party { s.exchange party with send := .write }) where
  valid := by
    have unsent : (s.pipe (.control party)).sent = none := (consistent.control party).trans (if_pos unopened)
    exact consistent.valid_setPipe ((consistent.valid _).begin_ unsent _)
  control other := by
    by_cases same : other = party
    · subst same
      simp [Pipe.begin_]
    · simpa [same] using consistent.control other
  request := consistent.request
  response := consistent.response
  unread other unreturned := by
    have still : (s.exchange other).recv ≠ .returned := by
      by_cases same : other = party
      · subst same
        simpa using unreturned
      · simpa [same] using unreturned
    have untaken := consistent.unread other still
    by_cases moved : other.peer = party
    · subst moved
      simpa [Pipe.begin_] using untaken
    · simpa [moved] using untaken
  writing lane writing := by
    by_cases moved : lane = .control party
    · subst moved
      simpa [Pipe.begin_] using Setup.settingsBytes_ne_nil party
    · have before : s.writing lane = true := by
        cases lane with
        | control other =>
            have differs : other ≠ party := fun same => moved (by rw [same])
            simpa [State.writing, differs] using writing
        | request => exact writing
        | response => exact writing
      simpa [moved] using consistent.writing lane before
  client := consistent.client
  server := consistent.server

theorem Consistent.setExchange (consistent : Consistent setup s) {party : Party} {exchange : Exchange}
    (opened : exchange.send = .openUni ↔ (s.exchange party).send = .openUni)
    (idle : exchange.send = .write → (s.exchange party).send = .write)
    (unread : exchange.recv ≠ .returned → (s.exchange party).recv ≠ .returned) :
    Consistent setup (s.setExchange party exchange) where
  valid := consistent.valid
  control other := by
    have before := consistent.control other
    by_cases same : other = party
    · subst same
      simpa [opened] using before
    · simpa [same] using before
  request := consistent.request
  response := consistent.response
  unread other unreturned := by
    apply consistent.unread other
    by_cases same : other = party
    · subst same
      exact unread (by simpa using unreturned)
    · simpa [same] using unreturned
  writing lane writing := by
    apply consistent.writing lane
    cases lane with
    | control other =>
        rw [State.writing, State.starting_setExchange] at writing
        by_cases same : other = party
        · subst same
          simp only [Bool.and_eq_true, decide_eq_true_eq, State.exchange_setExchange, if_true] at writing
          simpa [State.writing] using ⟨writing.1, idle writing.2⟩
        · simpa [State.writing, same] using writing
    | request => exact writing
    | response => exact writing
  client := consistent.client
  server := consistent.server

theorem Party.peer_injective {party other : Party} (same : party.peer = other.peer) : party = other := by
  cases party <;> cases other <;> first | rfl | cases same

theorem Consistent.tookSettings (consistent : Consistent setup s) {party : Party} {recv : ByteStream IoError}
    (returned : (s.exchange party).recv = .returned)
    (valid : ((s.pipe (.control party.peer)).take recv).Valid) :
    Consistent setup (s.setPipe (.control party.peer) ((s.pipe (.control party.peer)).take recv)) where
  valid := consistent.valid_setPipe valid
  control other := by
    rw [State.pipe_setPipe]
    split
    next same =>
      cases same
      exact consistent.control _
    next => exact consistent.control other
  request := consistent.request
  response := consistent.response
  unread other unreturned := by
    have differs : other.peer ≠ party.peer := by
      intro same
      rw [Party.peer_injective same] at unreturned
      exact unreturned returned
    simpa [differs] using consistent.unread other unreturned
  writing lane writing := by
    have before : s.writing lane = true := by
      cases lane with
      | control other => exact writing
      | request => exact writing
      | response => exact writing
    have unwritten := consistent.writing lane before
    by_cases same : lane = .control party.peer
    · subst same
      simpa [Pipe.take] using unwritten
    · simpa [same] using unwritten
  client := consistent.client
  server := consistent.server

theorem Consistent.settingsRead (consistent : Consistent setup s) {party : Party} {settings : Settings}
    {recv : ByteStream IoError} (reading : (s.exchange party).recv = .read)
    (read : Settings.read (s.pipe (.control party.peer)).recv = .done settings recv) :
    settings = enabledSettings ∧ ((s.pipe (.control party.peer)).take recv).Valid := by
  have untaken : (s.pipe (.control party.peer)).taken = false := consistent.unread party (by simp [reading])
  have receives : ∀ message, (s.pipe (.control party.peer)).sent = some message →
      Receives Settings.read message enabledSettings := by
    intro message sent
    rw [consistent.control] at sent
    split at sent
    case isTrue => cases sent
    case isFalse =>
      cases sent
      exact Setup.settings_receives _
  obtain ⟨_, _, same, _, _, valid⟩ := (consistent.valid _).received untaken receives
    Settings.read_incremental ⟨setup.settingsBytes party.peer, Setup.settingsBytes_ne_nil _,
      Setup.settings_receives _⟩ read
  exact ⟨same, valid⟩

theorem client_of_starting (starting : s.starting .client = true) : s.client = .settings := by
  rw [State.starting] at starting
  split at starting
  next phase => exact phase
  next => cases starting

theorem server_of_starting (starting : s.starting .server = true) : s.server = .settings := by
  rw [State.starting] at starting
  split at starting
  next phase => exact phase
  next => cases starting

theorem Consistent.openedBi (consistent : Consistent setup s) (phase : s.client = .settings) (id : VarInt) :
    Consistent setup
      { s.setPipe .request ((s.pipe .request).begin_ setup.requestBytes) with
        id := some id
        client := .writeRequest id } := by
  have holds := consistent.client
  rw [phase] at holds
  obtain ⟨unopened, untaken⟩ := holds
  have unsent : (s.pipe .request).sent = none := by rw [consistent.request, unopened]; rfl
  constructor
  · exact consistent.valid_setPipe ((consistent.valid _).begin_ unsent _)
  · exact consistent.control
  · simp [Pipe.begin_]
  · exact consistent.response
  · exact consistent.unread
  · intro lane writing
    cases lane with
    | control party =>
        cases party with
        | client => cases writing
        | server => exact consistent.writing _ writing
    | request =>
        simp only [State.pipe_setPipe, if_true]
        exact Setup.encodeHeadersFrame_ne_nil _ _
    | response => exact consistent.writing _ writing
  · exact ⟨rfl, untaken⟩
  · have server := consistent.server
    rw [unopened] at server
    exact server.after_open id rfl

theorem Consistent.acceptedBi (consistent : Consistent setup s) (phase : s.server = .settings) {id : VarInt}
    (opened : s.id = some id) : Consistent setup { s with server := .readRequest id } := by
  have holds := consistent.server
  rw [phase] at holds
  obtain ⟨valid, control, request, response, unread, writing, client, _⟩ := consistent
  refine ⟨valid, control, request, response, unread, ?_, client, opened, holds⟩
  intro lane writes
  apply writing lane
  cases lane with
  | control party =>
      cases party with
      | client => exact writes
      | server => cases writes
  | request => exact writes
  | response => cases writes

theorem Consistent.requestRead (consistent : Consistent setup s) (lawful : setup.Lawful) {id : VarInt}
    {request : ConnectRequest url.toUrlCrate} {recv : ByteStream IoError} (phase : s.server = .readRequest id)
    (read : ConnectRequest.read url.toUrlCrate http.toHttpCrate (setup.iterate .server) (s.pipe .request).recv =
      .done request recv) :
    request = setup.request ∧ ((s.pipe .request).take recv).Valid := by
  have holds := consistent.server
  rw [phase] at holds
  have receives : ∀ message, (s.pipe .request).sent = some message →
      Receives (ConnectRequest.read url.toUrlCrate http.toHttpCrate (setup.iterate .server)) message
        setup.request := by
    intro message sent
    rw [consistent.request, holds.1] at sent
    cases sent
    exact Setup.request_receives lawful _
  obtain ⟨_, _, same, _, _, valid⟩ := (consistent.valid _).received holds.2.2 receives
    (ConnectRequest.read_incremental _ _ _) ⟨setup.requestBytes, Setup.encodeHeadersFrame_ne_nil _ _,
      Setup.request_receives lawful _⟩ read
  exact ⟨same, valid⟩

theorem Consistent.readRequest (consistent : Consistent setup s) (lawful : setup.Lawful) {id : VarInt}
    {request : ConnectRequest url.toUrlCrate} {recv : ByteStream IoError} (phase : s.server = .readRequest id)
    (read : ConnectRequest.read url.toUrlCrate http.toHttpCrate (setup.iterate .server) (s.pipe .request).recv =
      .done request recv) :
    Consistent setup
      { s.setPipe .request ((s.pipe .request).take recv) with server := .request id request } := by
  obtain ⟨same, valid⟩ := consistent.requestRead lawful phase read
  have holds := consistent.server
  rw [phase] at holds
  constructor
  · exact consistent.valid_setPipe valid
  · exact consistent.control
  · exact consistent.request
  · exact consistent.response
  · exact consistent.unread
  · intro lane writing
    cases lane with
    | control party =>
        cases party with
        | client => exact consistent.writing _ writing
        | server => cases writing
    | request => exact consistent.writing _ writing
    | response => cases writing
  · exact consistent.client
  · exact ⟨holds.1, same, holds.2.1⟩

theorem Consistent.answered (consistent : Consistent setup s) {id : VarInt}
    {request : ConnectRequest url.toUrlCrate} (choice : Answer http) (phase : s.server = .request id request) :
    Consistent setup
      { s.setPipe .response ((s.pipe .response).begin_ (setup.responseBytes choice)) with
        answered := some choice
        server := .respond id request } := by
  have holds := consistent.server
  rw [phase] at holds
  obtain ⟨own, asked, unanswered⟩ := holds
  have unsent : (s.pipe .response).sent = none := by rw [consistent.response, unanswered]; rfl
  constructor
  · exact consistent.valid_setPipe ((consistent.valid _).begin_ unsent _)
  · exact consistent.control
  · exact consistent.request
  · simp [Pipe.begin_]
  · exact consistent.unread
  · intro lane writing
    cases lane with
    | control party =>
        cases party with
        | client => exact consistent.writing _ writing
        | server => cases writing
    | request => exact consistent.writing _ writing
    | response =>
        simp only [State.pipe_setPipe, if_true]
        exact Setup.encodeHeadersFrame_ne_nil _ _
  · have client := consistent.client
    rw [unanswered] at client
    exact client.after_answer choice rfl
  · exact ⟨own, asked, Option.some_ne_none choice⟩

/-- What the client reads is the answer of the server, written to its end. -/
theorem Consistent.responseRead (consistent : Consistent setup s) (lawful : setup.Lawful) {id : VarInt}
    {response : ConnectResponse http.toHttpCrate} {recv : ByteStream IoError}
    (phase : s.client = .readResponse id)
    (read : ConnectResponse.read url.toUrlCrate http.toHttpCrate (setup.iterate .client) (s.pipe .response).recv =
      .done response recv) :
    ∃ answer, s.answered = some answer ∧ response.status = answer.status ∧ (s.pipe .response).inFlight = [] ∧
      (s.pipe .response).buf = [] ∧ ((s.pipe .response).take recv).Valid := by
  have holds := consistent.client
  rw [phase] at holds
  let choice := s.answered.getD .drop
  have receives : ∀ message, (s.pipe .response).sent = some message →
      Receives (ConnectResponse.read url.toUrlCrate http.toHttpCrate (setup.iterate .client)) message
        { status := choice.status } := by
    intro message sent
    rw [consistent.response] at sent
    obtain ⟨answer, answered, rfl⟩ := Option.map_eq_some_iff.mp sent
    have same : choice = answer := by rw [show choice = s.answered.getD .drop from rfl, answered]; rfl
    rw [same]
    exact Setup.response_receives lawful _ _
  obtain ⟨message, sent, same, landed, written, valid⟩ := (consistent.valid _).received holds.2 receives
    (ConnectResponse.read_incremental _ _ _) ⟨setup.responseBytes choice, Setup.encodeHeadersFrame_ne_nil _ _,
      Setup.response_receives lawful _ _⟩ read
  rw [consistent.response] at sent
  obtain ⟨answer, answered, _⟩ := Option.map_eq_some_iff.mp sent
  refine ⟨answer, answered, ?_, landed, written, valid⟩
  rw [same, show choice = s.answered.getD .drop from rfl, answered]
  rfl

theorem Consistent.readResponse (consistent : Consistent setup s) (lawful : setup.Lawful) {id : VarInt}
    {response : ConnectResponse http.toHttpCrate} {recv : ByteStream IoError}
    (phase : s.client = .readResponse id)
    (read : ConnectResponse.read url.toUrlCrate http.toHttpCrate (setup.iterate .client) (s.pipe .response).recv =
      .done response recv) (accepted : response.status = http.ok) :
    Consistent setup
      { s.setPipe .response ((s.pipe .response).take recv) with
        client := .connected (.new id setup.request.url) } := by
  obtain ⟨answer, answered, status, _, written, valid⟩ := consistent.responseRead lawful phase read
  have holds := consistent.client
  rw [phase] at holds
  constructor
  · exact consistent.valid_setPipe valid
  · exact consistent.control
  · exact consistent.request
  · exact consistent.response
  · exact consistent.unread
  · intro lane writing
    cases lane with
    | control party =>
        cases party with
        | client => cases writing
        | server => exact consistent.writing _ writing
    | request => cases writing
    | response =>
        have unwritten := consistent.writing .response writing
        exact absurd written unwritten
  · exact ⟨⟨id, holds.1, rfl⟩, written, answer, answered, status.symm.trans accepted⟩
  · exact consistent.server.frame rfl (fun _ => rfl)

theorem carried_setPipe {lane : Lane} {pipe : Pipe IoError} (carried : Pipe.Carried (s.pipe lane) pipe)
    (other : Lane) : Pipe.Carried (s.pipe other) ((s.setPipe lane pipe).pipe other) := by
  rw [State.pipe_setPipe]
  split
  next same =>
    subst same
    exact carried
  next => exact ⟨rfl, rfl, rfl⟩

/-- A pipe that goes on with what it carries. -/
theorem Consistent.setPipe (consistent : Consistent setup s) {lane : Lane} {pipe : Pipe IoError}
    (carried : Pipe.Carried (s.pipe lane) pipe) (writing : s.writing lane = true → pipe.buf ≠ [])
    (idle : lane = .response → s.writing .response = false → pipe.buf = (s.pipe .response).buf) :
    Consistent setup (s.setPipe lane pipe) := by
  refine consistent.carried (carried_setPipe carried) ?_ ?_ s.lost s.guarded
  · intro other writes
    rw [State.pipe_setPipe]
    split
    next same =>
      subst same
      exact writing writes
    next => exact consistent.writing other writes
  · intro silent
    rw [State.pipe_setPipe]
    split
    next same => exact idle same.symm silent
    next => rfl

theorem Consistent.wroteSettings (consistent : Consistent setup s) {party : Party} {pipe : Pipe IoError}
    (writing : s.writing (.control party) = true) (carried : Pipe.Carried (s.pipe (.control party)) pipe) :
    Consistent setup
      ((s.setPipe (.control party) pipe).setExchange party { s.exchange party with send := .returned }) := by
  simp only [State.writing, Bool.and_eq_true, decide_eq_true_eq] at writing
  have returned : Consistent setup (s.setExchange party { s.exchange party with send := .returned }) := by
    refine consistent.setExchange ?_ (fun later => by cases later) id
    rw [writing.2]
    constructor <;> (intro later; cases later)
  refine returned.setPipe carried ?_ (fun later => by cases later)
  intro writes
  simp [State.writing] at writes

theorem Consistent.wroteRequest (consistent : Consistent setup s) {id : VarInt} {pipe : Pipe IoError}
    (phase : s.client = .writeRequest id) (carried : Pipe.Carried (s.pipe .request) pipe) :
    Consistent setup { s.setPipe .request pipe with client := .readResponse id } := by
  have holds := consistent.client
  rw [phase] at holds
  have reading : Consistent setup { s with client := .readResponse id } := by
    obtain ⟨valid, control, request, response, unread, writes, _, server⟩ := consistent
    refine ⟨valid, control, request, response, unread, ?_, holds, server⟩
    intro lane later
    apply writes lane
    cases lane with
    | control party =>
        cases party with
        | client => cases later
        | server => exact later
    | request => cases later
    | response => exact later
  exact reading.setPipe carried nofun nofun

/-- The server goes on from a response that it has written. -/
theorem Consistent.wroteResponse (consistent : Consistent setup s) {server : Server backend url http}
    {pipe : Pipe IoError} (carried : Pipe.Carried (s.pipe .response) pipe) (all : pipe.buf = [])
    (silent : ∀ lane, State.writing { s with server } lane = true → lane ≠ .response ∧ s.writing lane = true)
    (holds : server.Holds setup s.id s.answered (s.pipe .request) pipe) :
    Consistent setup { s.setPipe .response pipe with server } where
  valid := consistent.valid_setPipe (carried.valid (consistent.valid _))
  control := consistent.control
  request := consistent.request
  response := carried.sent.trans consistent.response
  unread := consistent.unread
  writing lane later := by
    obtain ⟨elsewhere, before⟩ := silent lane later
    have unwritten := consistent.writing lane before
    rw [← State.pipe_setPipe_of_ne s elsewhere] at unwritten
    exact unwritten
  client := consistent.client.frame carried.taken (fun _ => all)
  server := holds

theorem Consistent.accepted (consistent : Consistent setup s) {id : VarInt}
    {request : ConnectRequest url.toUrlCrate} {pipe : Pipe IoError} (phase : s.server = .respond id request)
    (ok : s.answered = some .ok) (carried : Pipe.Carried (s.pipe .response) pipe) (all : pipe.buf = []) :
    Consistent setup { s.setPipe .response pipe with server := .accepted (.new id request.url) } := by
  have holds := consistent.server
  rw [phase] at holds
  obtain ⟨own, asked, _⟩ := holds
  refine consistent.wroteResponse carried all ?_ ⟨⟨id, own, ?_⟩, ok, all⟩
  · intro lane writes
    cases lane with
    | control party =>
        cases party with
        | client => exact ⟨nofun, writes⟩
        | server => cases writes
    | request => exact ⟨nofun, writes⟩
    | response => cases writes
  · rw [asked]

theorem Consistent.refused (consistent : Consistent setup s) {id : VarInt}
    {request : ConnectRequest url.toUrlCrate} {pipe : Pipe IoError} (phase : s.server = .respond id request)
    (refusal : s.answered ≠ some .ok) (carried : Pipe.Carried (s.pipe .response) pipe) (all : pipe.buf = []) :
    Consistent setup { s.setPipe .response pipe.finish with server := .stopping } := by
  have holds := consistent.server
  rw [phase] at holds
  obtain ⟨opened, _, found⟩ := holds
  obtain ⟨choice, answered⟩ := Option.ne_none_iff_exists'.mp found
  have finished : Pipe.Carried (s.pipe .response) pipe.finish := ⟨carried.content, carried.sent, carried.taken⟩
  refine consistent.wroteResponse finished all ?_ ⟨by simp [opened], choice, answered, ?_, all⟩
  · intro lane writes
    cases lane with
    | control party =>
        cases party with
        | client => exact ⟨nofun, writes⟩
        | server => cases writes
    | request => exact ⟨nofun, writes⟩
    | response => cases writes
  · intro ok
    rw [ok] at answered
    exact refusal answered

/-- The server puts an end to its handshake behind its answer. -/
theorem Consistent.dropped (consistent : Consistent setup s) {server : Server backend url http}
    (silent : ∀ lane, State.writing { s with server } lane = true → s.writing lane = true)
    (holds : server.Holds setup s.id s.answered (s.pipe .request) (s.pipe .response)) :
    Consistent setup { s.retire .server with server } := by
  obtain ⟨valid, control, request, response, unread, writing, client, _⟩ := consistent.retire .server s.guarded
  refine ⟨valid, control, request, response, unread, fun lane writes => writing lane (silent lane writes), client,
    ?_⟩
  exact holds.frame (carried_retire s .server .request).taken (fun _ => buf_retire s .server .response)

theorem Consistent.rejected (consistent : Consistent setup s) (phase : s.server = .stopping) :
    Consistent setup { s.retire .server with server := .rejected } := by
  have holds := consistent.server
  rw [phase] at holds
  apply consistent.dropped
  · intro lane writes
    cases lane with
    | control party =>
        cases party with
        | client => exact writes
        | server => cases writes
    | request => exact writes
    | response => cases writes
  · exact holds

theorem Consistent.respondFailed (consistent : Consistent setup s) {id : VarInt}
    {request : ConnectRequest url.toUrlCrate} (phase : s.server = .respond id request)
    (error : Option (HandshakeError backend url.toUrlCrate http.toHttpCrate)) :
    Consistent setup (s.respondFailed error) := by
  have holds := consistent.server
  rw [phase] at holds
  have writing : s.writing .response = true := by rw [State.writing, phase]
  apply consistent.dropped
  · intro lane writes
    cases lane with
    | control party =>
        cases party with
        | client => exact writes
        | server => cases writes
    | request => exact writes
    | response => cases writes
  · exact ⟨holds.2.2, consistent.writing .response writing⟩

theorem Consistent.lost (consistent : Consistent setup s) (party : Party) (io : IoError)
    (lost : Party → Option (ConnectionError backend × IoError)) :
    Consistent setup { s with
      lost
      pipe := fun lane => if lane.sender = party then s.pipe lane else (s.pipe lane).fail io } := by
  have buf : ∀ pipe : Pipe IoError, (pipe.fail io).buf = pipe.buf := by
    intro pipe
    rw [Pipe.fail]
    split <;> rfl
  refine consistent.carried ?_ ?_ ?_ lost s.guarded
  · intro lane
    split
    · exact ⟨rfl, rfl, rfl⟩
    · exact Pipe.carried_fail _ _
  · intro lane writing
    split
    · exact consistent.writing lane writing
    · rw [buf]
      exact consistent.writing lane writing
  · intro _
    split
    · rfl
    · exact buf _

theorem Fails.active {party : Party} {error : HandshakeError backend url.toUrlCrate http.toHttpCrate}
    (fails : Fails setup s party error) : s.active party = true := by
  cases fails with
  | lost _ starting => exact active_of_starting starting
  | write _ active => exact active
  | settings _ starting => exact active_of_starting starting
  | request _ phase => simp [State.active, phase]
  | response _ phase => simp [State.active, phase]
  | status phase => simp [State.active, phase]

theorem consistent_step (consistent : Consistent setup s) (lawful : setup.Lawful) {event : Event backend http}
    (stepped : step setup s event = some next) : Consistent setup next := by
  cases moves_of_step stepped with
  | fails fails => exact consistent.leave fails.active _
  | openedUni starting unopened => exact consistent.openedUni unopened
  | acceptedUni starting unaccepted =>
      refine consistent.setExchange Iff.rfl id ?_
      intro _ returned
      rw [unaccepted] at returned
      cases returned
  | @readSettings party settings recv starting reading read =>
      obtain ⟨_, valid⟩ := consistent.settingsRead reading read
      have returned : Consistent setup (s.setExchange party { s.exchange party with recv := .returned }) := by
        refine consistent.setExchange Iff.rfl id ?_
        intro unreturned
        exact absurd rfl unreturned
      exact returned.tookSettings (by simp) valid
  | openedBi starting => exact consistent.openedBi (client_of_starting starting) _
  | acceptedBi starting joined opened => exact consistent.acceptedBi (server_of_starting starting) opened
  | readRequest phase read => exact consistent.readRequest lawful phase read
  | answered choice phase => exact consistent.answered choice phase
  | readResponse phase read accepted => exact consistent.readResponse lawful phase read accepted
  | rejected phase => exact consistent.rejected phase
  | wrote writing written more =>
      refine consistent.setPipe (Pipe.write_cases written).2.2.1 (fun _ => more) ?_
      intro same silent
      rw [same] at writing
      exact absurd (writing.symm.trans silent) (by decide)
  | wroteSettings writing written => exact consistent.wroteSettings writing (Pipe.write_cases written).2.2.1
  | wroteRequest phase written => exact consistent.wroteRequest phase (Pipe.write_cases written).2.2.1
  | accepted phase ok written all => exact consistent.accepted phase ok (Pipe.write_cases written).2.2.1 all
  | refused phase refusal written all =>
      exact consistent.refused phase refusal (Pipe.write_cases written).2.2.1 all
  | respondFailed phase => exact consistent.respondFailed phase _
  | delivered delivered =>
      obtain ⟨_, _, _, carried, rfl⟩ := Pipe.deliver_cases delivered
      exact consistent.setPipe carried (fun writing => consistent.writing _ writing) (fun same _ => by rw [same])
  | deliveredEnd delivered =>
      obtain ⟨_, _, _, carried, rfl⟩ := Pipe.deliverEnd_cases delivered
      exact consistent.setPipe carried (fun writing => consistent.writing _ writing) (fun same _ => by rw [same])
  | lost error io whole => exact consistent.lost _ io _
  | cancelled active => exact consistent.leave active none

end Step

theorem consistent_run (lawful : setup.Lawful) {events : List (Event backend http)} {s : State backend url http}
    (ran : run (step setup) start events = some s) : Consistent setup s :=
  run_invariant (fun consistent stepped => consistent_step consistent lawful stepped) consistent_start ran

end Webtrans.Session.Handshake
