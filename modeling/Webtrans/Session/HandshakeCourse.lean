import Webtrans.Session.HandshakeCompletion

namespace Webtrans.Session.Handshake

open Webtrans.Data Webtrans.Proto

/-! A handshake that nobody interrupts comes to its own end. -/

variable {backend : Backend} {url : ClientUrlCrate} {http : StatusCrate} {setup : Setup url http}

/-- Nobody gives up, and the connection is lost to a party only when the other
one has refused and dropped it. -/
def Undisturbed (s : State backend url http) : Event backend http → Prop
  | .cancel _ => False
  | .lose party _ _ => s.departed party.peer = true
  | _ => True

/-- The client fails with the status of the answer and with nothing else. -/
def Client.OnCourse (id : Option VarInt) (answered : Option (Answer http)) (response : Pipe IoError) :
    Client backend url http → Prop
  | .failed error =>
      id ≠ none ∧ (∃ answer, answered = some answer ∧ answer.status ≠ http.ok ∧
        error = .connectError (.errorStatus answer.status)) ∧ response.inFlight = [] ∧ response.buf = []
  | .cancelled => False
  | _ => True

def Server.OnCourse (request response : Pipe IoError) (clientOver : Bool) : Server backend url http → Prop
  | .settings | .readRequest _ => True
  | .request _ _ | .respond _ _ | .accepted _ => request.taken = true
  | .stopping => request.taken = true ∧ response.finished = true
  | .rejected => request.taken = true ∧ (response.recv.ending ≠ .waiting ∨ clientOver = true)
  | .failed _ | .respondFailed _ | .cancelled => False

structure OnCourse (s : State backend url http) : Prop where
  lost : ∀ party, s.lost party ≠ none → s.departed party.peer = true
  client : s.client.OnCourse s.id s.answered (s.pipe .response)
  server : s.server.OnCourse (s.pipe .request) (s.pipe .response) (s.departed .client)
  idle : ∀ lane, s.writing lane = false → (s.pipe lane).buf = []
  finished : ∀ lane, (s.pipe lane).finished = true →
    s.departed lane.sender = true ∨ lane = .response ∧ s.server = .stopping
  ended : ∀ lane, (s.pipe lane).recv.ending ≠ .waiting →
    (s.pipe lane).sent ≠ none ∧ (s.pipe lane).inFlight = [] ∧ (s.pipe lane).buf = []
  joined : ∀ party, s.starting party = false → (s.exchange party).Joined
  settings : ∀ party, (s.exchange party).recv = .returned → (s.pipe (.control party.peer)).taken = true

theorem onCourse_start : OnCourse (start : State backend url http) where
  lost _ lost := absurd rfl lost
  client := trivial
  server := trivial
  idle _ _ := rfl
  finished _ finished := by cases finished
  ended _ ended := absurd rfl ended
  joined party passed := by cases party <;> cases passed
  settings _ returned := by cases returned

section OnCourse

variable {s next : State backend url http}

theorem OnCourse.failed_of_departed (course : OnCourse s) (departed : s.departed .client = true) :
    ∃ error, s.client = .failed error := by
  have client := course.client
  cases phase : s.client with
  | failed error => exact ⟨error, rfl⟩
  | cancelled =>
      rw [phase] at client
      exact client.elim
  | _ => simp [State.departed, phase] at departed

theorem OnCourse.rejected_of_departed (course : OnCourse s) (departed : s.departed .server = true) :
    s.server = .rejected := by
  have server := course.server
  cases phase : s.server with
  | rejected => rfl
  | failed error =>
      rw [phase] at server
      exact server.elim
  | respondFailed error =>
      rw [phase] at server
      exact server.elim
  | cancelled =>
      rw [phase] at server
      exact server.elim
  | _ => simp [State.departed, phase] at departed

/-- Who is still busy with the settings has a peer that is still there. -/
theorem OnCourse.peer_stays (course : OnCourse s) (consistent : Consistent setup s) {party : Party}
    (starting : s.starting party = true) : s.departed party.peer = false := by
  by_contra departed
  rw [Bool.not_eq_false] at departed
  cases party with
  | client =>
      have client := consistent.client
      have server := consistent.server
      rw [client_of_starting starting] at client
      rw [course.rejected_of_departed departed] at server
      exact server.1 client.1
  | server =>
      obtain ⟨error, failed⟩ := course.failed_of_departed departed
      have client := course.client
      have server := consistent.server
      rw [failed] at client
      rw [server_of_starting starting] at server
      obtain ⟨_, ⟨answer, answered, _⟩, _⟩ := client
      cases answered.symm.trans server.1

theorem OnCourse.reader_stays (course : OnCourse s) (consistent : Consistent setup s) {lane : Lane}
    (writing : s.writing lane = true) : s.departed lane.sender.peer = false := by
  cases lane with
  | control party =>
      simp only [State.writing, Bool.and_eq_true] at writing
      exact course.peer_stays consistent writing.1
  | request =>
      by_contra departed
      rw [Bool.not_eq_false] at departed
      have server := course.server
      rw [course.rejected_of_departed departed] at server
      exact consistent.writing .request writing ((consistent.valid .request).emptied server.1).2
  | response =>
      by_contra departed
      rw [Bool.not_eq_false] at departed
      obtain ⟨error, failed⟩ := course.failed_of_departed departed
      have client := course.client
      rw [failed] at client
      exact consistent.writing .response writing client.2.2.2

theorem OnCourse.reads_settings (course : OnCourse s) (consistent : Consistent setup s) {party : Party}
    (reading : (s.exchange party).recv = .read) :
    Settings.read (s.pipe (.control party.peer)).recv = .pending ∨
      ∃ recv, Settings.read (s.pipe (.control party.peer)).recv = .done enabledSettings recv := by
  refine (consistent.valid _).on_course (consistent.unread party (by simp [reading])) ?_
    Settings.read_incremental ⟨setup.settingsBytes party.peer, Setup.settingsBytes_ne_nil _,
      Setup.settings_receives _⟩ (course.ended _)
  intro message sent
  rw [consistent.control] at sent
  split at sent
  case isTrue => cases sent
  case isFalse =>
    cases sent
    exact Setup.settings_receives _

theorem OnCourse.reads_request (course : OnCourse s) (consistent : Consistent setup s) (lawful : setup.Lawful)
    {id : VarInt} (phase : s.server = .readRequest id) :
    ConnectRequest.read url.toUrlCrate http.toHttpCrate (setup.iterate .server) (s.pipe .request).recv = .pending ∨
      ∃ recv, ConnectRequest.read url.toUrlCrate http.toHttpCrate (setup.iterate .server) (s.pipe .request).recv =
        .done setup.request recv := by
  have server := consistent.server
  rw [phase] at server
  refine (consistent.valid _).on_course server.2.2 ?_ (ConnectRequest.read_incremental _ _ _)
    ⟨setup.requestBytes, Setup.encodeHeadersFrame_ne_nil _ _, Setup.request_receives lawful _⟩ (course.ended _)
  intro message sent
  rw [consistent.request, server.1] at sent
  cases sent
  exact Setup.request_receives lawful _

theorem OnCourse.reads_response (course : OnCourse s) (consistent : Consistent setup s) (lawful : setup.Lawful)
    {id : VarInt} (phase : s.client = .readResponse id) :
    ConnectResponse.read url.toUrlCrate http.toHttpCrate (setup.iterate .client) (s.pipe .response).recv =
        .pending ∨
      ∃ response recv, ConnectResponse.read url.toUrlCrate http.toHttpCrate (setup.iterate .client)
        (s.pipe .response).recv = .done response recv := by
  have client := consistent.client
  rw [phase] at client
  let choice := s.answered.getD .drop
  have receives : ∀ message, (s.pipe .response).sent = some message →
      Receives (ConnectResponse.read url.toUrlCrate http.toHttpCrate (setup.iterate .client)) message
        { status := choice.status } := by
    intro message sent
    rw [consistent.response] at sent
    obtain ⟨answer, answered, rfl⟩ := Option.map_eq_some_iff.mp sent
    have same : choice = answer := by rw [show choice = s.answered.getD .drop from rfl, answered]; rfl
    rw [same]
    exact Setup.response_receives lawful _ _
  rcases (consistent.valid .response).on_course client.2 receives (ConnectResponse.read_incremental _ _ _)
    ⟨setup.responseBytes choice, Setup.encodeHeadersFrame_ne_nil _ _, Setup.response_receives lawful _ _⟩
    (course.ended .response) with pending | ⟨recv, done⟩
  · exact .inl pending
  · exact .inr ⟨_, recv, done⟩

/-- The one failure of an undisturbed handshake. -/
theorem OnCourse.refused (course : OnCourse s) (consistent : Consistent setup s) (lawful : setup.Lawful)
    {party : Party} {error : HandshakeError backend url.toUrlCrate http.toHttpCrate}
    (fails : Fails setup s party error) :
    party = .client ∧ ∃ id answer, s.client = .readResponse id ∧ s.answered = some answer ∧
      answer.status ≠ http.ok ∧ error = .connectError (.errorStatus answer.status) ∧
      (s.pipe .response).inFlight = [] ∧ (s.pipe .response).buf = [] := by
  cases fails with
  | lost _ starting lost =>
      have departed := course.lost _ lost
      rw [course.peer_stays consistent starting] at departed
      cases departed
  | write _ active writing cause =>
      have departed := cause.elim (course.lost _) id
      rw [course.reader_stays consistent writing] at departed
      cases departed
  | settings _ starting reading unread finished =>
      rcases course.reads_settings consistent reading with pending | ⟨recv, done⟩
      · exact absurd pending finished
      · have lacks := unread _ _ done
        rw [supports_enabledSettings] at lacks
        cases lacks
  | request _ phase cause failed =>
      rcases course.reads_request consistent lawful phase with pending | ⟨recv, done⟩
      · cases failed.symm.trans pending
      · cases failed.symm.trans done
  | response _ phase cause failed =>
      rcases course.reads_response consistent lawful phase with pending | ⟨response, recv, done⟩
      · cases failed.symm.trans pending
      · cases failed.symm.trans done
  | status phase read refused =>
      obtain ⟨answer, answered, status, landed, written, _⟩ := consistent.responseRead lawful phase read
      rw [status] at refused ⊢
      exact ⟨rfl, _, answer, phase, answered, refused, rfl, landed, written⟩

theorem Client.OnCourse.frame {client : Client backend url http} {id : Option VarInt}
    {answered : Option (Answer http)} {response response' : Pipe IoError}
    (course : client.OnCourse id answered response)
    (drained : response.inFlight = [] → response.buf = [] → response'.inFlight = [] ∧ response'.buf = []) :
    client.OnCourse id answered response' := by
  cases client with
  | failed error => exact ⟨course.1, course.2.1, drained course.2.2.1 course.2.2.2⟩
  | cancelled => exact course
  | _ => trivial

theorem Server.OnCourse.frame {server : Server backend url http} {request request' response response' : Pipe IoError}
    {departed departed' : Bool} (course : server.OnCourse request response departed)
    (taken : request.taken = true → request'.taken = true)
    (finished : response.finished = true → response'.finished = true)
    (ending : response.recv.ending ≠ .waiting → response'.recv.ending ≠ .waiting)
    (stays : departed = true → departed' = true) : server.OnCourse request' response' departed' := by
  cases server with
  | settings => trivial
  | readRequest id => trivial
  | request id asked => exact taken course
  | respond id asked => exact taken course
  | accepted session => exact taken course
  | stopping => exact ⟨taken course.1, finished course.2⟩
  | rejected => exact ⟨taken course.1, course.2.imp ending stays⟩
  | _ => exact course

/-- A step that changes one pipe, and the phases of the parties. -/
theorem OnCourse.move (course : OnCourse s) {t : State backend url http} {lane : Lane} {pipe : Pipe IoError}
    (pipes : t.pipe = (s.setPipe lane pipe).pipe) (lost : t.lost = s.lost)
    (departed : ∀ party, s.departed party = true → t.departed party = true)
    (stopping : s.server = .stopping → t.server = .stopping)
    (writing : ∀ other, other ≠ lane → s.writing other = true → t.writing other = true)
    (client : t.client.OnCourse t.id t.answered (t.pipe .response))
    (server : t.server.OnCourse (t.pipe .request) (t.pipe .response) (t.departed .client))
    (joined : ∀ party, t.starting party = false → (t.exchange party).Joined)
    (settings : ∀ party, (t.exchange party).recv = .returned → (t.pipe (.control party.peer)).taken = true)
    (idle : t.writing lane = false → pipe.buf = [])
    (finished : pipe.finished = true → t.departed lane.sender = true ∨ lane = .response ∧ t.server = .stopping)
    (ended : pipe.recv.ending ≠ .waiting → pipe.sent ≠ none ∧ pipe.inFlight = [] ∧ pipe.buf = []) :
    OnCourse t where
  lost party known := departed _ (course.lost party (by rw [← lost]; exact known))
  client := client
  server := server
  idle other silent := by
    rw [pipes, State.pipe_setPipe]
    split
    next same =>
      subst same
      exact idle silent
    next differs =>
      apply course.idle other
      by_contra wrote
      have still := writing other differs (by simpa using wrote)
      exact absurd (still.symm.trans silent) (by decide)
  finished other ends := by
    rw [pipes, State.pipe_setPipe] at ends
    split at ends
    next same =>
      subst same
      exact finished ends
    next => exact (course.finished other ends).imp (departed _) (And.imp_right stopping)
  ended other ends := by
    rw [pipes, State.pipe_setPipe] at ends ⊢
    split at ends
    next same =>
      rw [if_pos same]
      exact ended ends
    next differs =>
      rw [if_neg differs]
      exact course.ended other ends
  joined := joined
  settings := settings

/-- The settings that were read stay so. -/
theorem OnCourse.settings_setPipe (course : OnCourse s) {lane : Lane} {pipe : Pipe IoError}
    (taken : (s.pipe lane).taken = true → pipe.taken = true) (party : Party)
    (returned : (s.exchange party).recv = .returned) :
    ((s.setPipe lane pipe).pipe (.control party.peer)).taken = true := by
  have before := course.settings party returned
  rw [State.pipe_setPipe]
  split
  next same =>
    rw [same] at before
    exact taken before
  next => exact before

/-- What the transport does to a pipe, and a write that goes on. -/
theorem OnCourse.setPipe (course : OnCourse s) {lane : Lane} {pipe : Pipe IoError}
    (taken : pipe.taken = (s.pipe lane).taken) (finished : pipe.finished = (s.pipe lane).finished)
    (ending : (s.pipe lane).recv.ending ≠ .waiting → pipe.recv.ending ≠ .waiting)
    (drained : (s.pipe lane).inFlight = [] → (s.pipe lane).buf = [] → pipe.inFlight = [] ∧ pipe.buf = [])
    (idle : s.writing lane = false → pipe.buf = [])
    (ended : pipe.recv.ending ≠ .waiting → pipe.sent ≠ none ∧ pipe.inFlight = [] ∧ pipe.buf = []) :
    OnCourse (s.setPipe lane pipe) := by
  have same : ∀ {other : Lane}, other = lane → s.pipe other = s.pipe lane := fun equal => by rw [equal]
  refine course.move rfl rfl (fun _ departed => departed) id (fun _ _ writes => writes) ?_ ?_ course.joined
    (course.settings_setPipe taken.trans) idle ?_ ended
  · refine course.client.frame ?_
    rw [State.pipe_setPipe]
    split
    next equal =>
      rw [same equal]
      exact drained
    next => exact And.intro
  · refine course.server.frame ?_ ?_ ?_ id
    · rw [State.pipe_setPipe]
      split
      next equal =>
        rw [same equal]
        exact taken.trans
      next => exact id
    · rw [State.pipe_setPipe]
      split
      next equal =>
        rw [same equal]
        exact finished.trans
      next => exact id
    · rw [State.pipe_setPipe]
      split
      next equal =>
        rw [same equal]
        exact ending
      next => exact id
  · intro ends
    exact course.finished lane (finished.symm.trans ends)

theorem retire_cases (s : State backend url http) (party : Party) (lane : Lane) :
    (s.retire party).pipe lane = s.pipe lane ∨
      lane.sender = party ∧ (s.retire party).pipe lane = (s.pipe lane).finish := by
  rw [State.retire]
  dsimp only
  split
  next held => exact .inr ⟨held.1, rfl⟩
  next => exact .inl rfl

/-- A party ends the handshake, and drops what it holds. -/
theorem OnCourse.retire (course : OnCourse s) {t : State backend url http} {party : Party}
    (pipes : t.pipe = (s.retire party).pipe) (lost : t.lost = s.lost) (exchange : t.exchange = s.exchange)
    (departed : ∀ other, s.departed other = true → t.departed other = true) (left : t.departed party = true)
    (stopping : s.server = .stopping → t.server = .stopping ∨ t.departed .server = true)
    (writing : ∀ lane, t.writing lane = s.writing lane) (starting : ∀ other, t.starting other = s.starting other)
    (client : t.client.OnCourse t.id t.answered (t.pipe .response))
    (server : t.server.OnCourse (t.pipe .request) (t.pipe .response) (t.departed .client)) : OnCourse t where
  lost other known := departed _ (course.lost other (by rw [← lost]; exact known))
  client := client
  server := server
  idle lane silent := by
    rw [pipes, buf_retire]
    exact course.idle lane ((writing lane).symm.trans silent)
  finished lane ends := by
    have before : (s.pipe lane).finished = true → t.departed lane.sender = true ∨
        lane = .response ∧ t.server = .stopping := by
      intro finished
      rcases course.finished lane finished with ended | ⟨same, stops⟩
      · exact .inl (departed _ ended)
      · rcases stopping stops with still | ended
        · exact .inr ⟨same, still⟩
        · rw [same]
          exact .inl ended
    rw [pipes] at ends
    rcases retire_cases s party lane with same | ⟨sender, _⟩
    · rw [same] at ends
      exact before ends
    · rw [sender]
      exact .inl left
  ended lane ends := by
    have same : ((s.retire party).pipe lane).recv = (s.pipe lane).recv ∧
        ((s.retire party).pipe lane).sent = (s.pipe lane).sent ∧
        ((s.retire party).pipe lane).inFlight = (s.pipe lane).inFlight := by
      rcases retire_cases s party lane with same | ⟨_, same⟩ <;> rw [same] <;> exact ⟨rfl, rfl, rfl⟩
    rw [pipes, same.1] at ends
    rw [pipes, same.2.1, same.2.2, buf_retire]
    exact course.ended lane ends
  joined other passed := by
    rw [exchange]
    exact course.joined other ((starting other).symm.trans passed)
  settings other returned := by
    rw [exchange] at returned
    rw [pipes, (carried_retire s party _).taken]
    exact course.settings other returned

/-- All that a party has sent which ended the handshake has arrived. -/
theorem OnCourse.drained_of_departed (course : OnCourse s) (consistent : Consistent setup s) {lane : Lane}
    (departed : s.departed lane.sender = true) :
    (s.pipe lane).sent ≠ none ∧ (s.pipe lane).inFlight = [] ∧ (s.pipe lane).buf = [] := by
  have emptied : (s.pipe lane).taken = true →
      (s.pipe lane).sent ≠ none ∧ (s.pipe lane).inFlight = [] ∧ (s.pipe lane).buf = [] :=
    fun taken => ⟨(consistent.valid lane).begun taken, (consistent.valid lane).emptied taken⟩
  have heard : ∀ party : Party, s.departed party.peer = true → (s.pipe (.control party.peer)).taken = true := by
    intro party gone
    apply course.settings
    refine (course.joined party ?_).2
    by_contra starting
    have stays := course.peer_stays consistent (by simpa using starting)
    exact absurd (stays.symm.trans gone) (by decide)
  cases lane with
  | control party =>
      cases party with
      | client => exact emptied (heard .server departed)
      | server => exact emptied (heard .client departed)
  | request =>
      obtain ⟨error, failed⟩ := course.failed_of_departed departed
      have client := course.client
      have server := course.server
      have answers := consistent.server
      rw [failed] at client
      obtain ⟨_, ⟨answer, answered, _⟩, _⟩ := client
      apply emptied
      cases phase : s.server with
      | settings =>
          rw [phase] at answers
          cases answered.symm.trans answers.1
      | readRequest id =>
          rw [phase] at answers
          cases answered.symm.trans answers.2.1
      | stopping =>
          rw [phase] at server
          exact server.1
      | rejected =>
          rw [phase] at server
          exact server.1
      | _ =>
          rw [phase] at server
          first | exact server | exact server.elim
  | response =>
      have rejected := course.rejected_of_departed departed
      have server := course.server
      rw [rejected] at server
      rcases server.2 with ended | gone
      · exact course.ended .response ended
      · obtain ⟨error, failed⟩ := course.failed_of_departed gone
        have client := course.client
        rw [failed] at client
        obtain ⟨_, ⟨answer, answered, _⟩, drained⟩ := client
        refine ⟨?_, drained⟩
        rw [consistent.response, answered]
        exact Option.some_ne_none _

theorem OnCourse.lose (course : OnCourse s) (consistent : Consistent setup s) {party : Party}
    (gone : s.departed party.peer = true) (error : ConnectionError backend) (io : IoError) :
    OnCourse { s with
      lost := Function.update s.lost party (some (error, io))
      pipe := fun lane => if lane.sender = party then s.pipe lane else (s.pipe lane).fail io } := by
  have kept : ∀ lane : Lane, let pipe := if lane.sender = party then s.pipe lane else (s.pipe lane).fail io
      pipe.taken = (s.pipe lane).taken ∧ pipe.finished = (s.pipe lane).finished ∧
      pipe.inFlight = (s.pipe lane).inFlight ∧ pipe.buf = (s.pipe lane).buf ∧ pipe.sent = (s.pipe lane).sent ∧
      ((s.pipe lane).recv.ending ≠ .waiting → pipe.recv.ending ≠ .waiting) := by
    intro lane
    dsimp only
    split
    · exact ⟨rfl, rfl, rfl, rfl, rfl, id⟩
    · rw [Pipe.fail]
      split
      · exact ⟨rfl, rfl, rfl, rfl, rfl, fun _ waits => by cases waits⟩
      · exact ⟨rfl, rfl, rfl, rfl, rfl, id⟩
  constructor
  · intro other known
    by_cases same : other = party
    · rw [same]
      exact gone
    · simp only [Function.update_apply, if_neg same] at known
      exact course.lost other known
  · refine course.client.frame (fun landed written => ?_)
    exact ⟨(kept .response).2.2.1.trans landed, (kept .response).2.2.2.1.trans written⟩
  · exact course.server.frame (kept .request).1.trans (kept .response).2.1.trans (kept .response).2.2.2.2.2 id
  · intro lane silent
    exact (kept lane).2.2.2.1.trans (course.idle lane silent)
  · intro lane ends
    exact course.finished lane ((kept lane).2.1.symm.trans ends)
  · intro lane ends
    obtain ⟨_, _, landed, written, sent, _⟩ := kept lane
    dsimp only at ends landed written sent ⊢
    rw [landed, written, sent]
    by_cases sender : lane.sender = party
    · rw [if_pos sender] at ends
      exact course.ended lane ends
    · apply course.drained_of_departed consistent
      have peer : lane.sender = party.peer := by
        cases lane with
        | control other => cases other <;> cases party <;> first | rfl | exact absurd rfl sender
        | request => cases party <;> first | rfl | exact absurd rfl sender
        | response => cases party <;> first | rfl | exact absurd rfl sender
      rw [peer]
      exact gone
  · exact course.joined
  · intro other returned
    exact (kept (.control other.peer)).1.trans (course.settings other returned)

theorem OnCourse.openedUni (course : OnCourse s) (consistent : Consistent setup s) {party : Party}
    (starting : s.starting party = true) (unopened : (s.exchange party).send = .openUni) :
    OnCourse
      ((s.setPipe (.control party) ((s.pipe (.control party)).begin_ (setup.settingsBytes party))).setExchange
        party { s.exchange party with send := .write }) := by
  have unsent : (s.pipe (.control party)).sent = none := (consistent.control party).trans (if_pos unopened)
  refine course.move rfl rfl (fun other departed => ?_) id (fun other differs writes => ?_) ?_ ?_ ?_ ?_ ?_ ?_ ?_
  · cases other <;> exact departed
  · cases other with
    | control other =>
        have elsewhere : other ≠ party := fun same => differs (by rw [same])
        simpa [State.writing, elsewhere] using writes
    | request => exact writes
    | response => exact writes
  · exact course.client
  · exact course.server
  · intro other passed
    rw [State.starting_setExchange, State.starting_setPipe] at passed
    have elsewhere : other ≠ party := by
      intro same
      rw [same] at passed
      exact absurd (starting.symm.trans passed) (by decide)
    simpa [elsewhere] using course.joined other passed
  · intro other returned
    have before : (s.exchange other).recv = .returned := by
      by_cases same : other = party
      · subst same
        simpa using returned
      · simpa [same] using returned
    have taken : (s.pipe (.control party)).taken = true →
        ((s.pipe (.control party)).begin_ (setup.settingsBytes party)).taken = true := id
    exact course.settings_setPipe taken other before
  · intro silent
    simp [State.writing, starting] at silent
  · intro ends
    exact (course.finished (.control party) ends).imp (fun departed => by cases party <;> exact departed)
      (fun lacks => by cases lacks.1)
  · intro ends
    exact absurd unsent (course.ended (.control party) ends).1

theorem OnCourse.setExchange (course : OnCourse s) {party : Party} {exchange : Exchange}
    (starting : s.starting party = true)
    (idle : (s.exchange party).send = .write → exchange.send ≠ .write → (s.pipe (.control party)).buf = [])
    (taken : exchange.recv = .returned → (s.pipe (.control party.peer)).taken = true) :
    OnCourse (s.setExchange party exchange) where
  lost := by
    intro other known
    have departed := course.lost other known
    cases other <;> exact departed
  client := course.client
  server := course.server
  idle lane silent := by
    cases lane with
    | control other =>
        by_cases same : other = party
        · subst same
          by_cases wrote : (s.exchange other).send = .write
          · refine idle wrote ?_
            simpa [State.writing, starting] using silent
          · apply course.idle
            simp [State.writing, wrote]
        · apply course.idle
          simpa [State.writing, same] using silent
    | request => exact course.idle .request silent
    | response => exact course.idle .response silent
  finished lane ends := by
    have before := course.finished lane ends
    cases lane with
    | control other => cases other <;> exact before
    | request => exact before
    | response => exact before
  ended := course.ended
  joined other passed := by
    rw [State.starting_setExchange] at passed
    have elsewhere : other ≠ party := by
      intro same
      rw [same] at passed
      exact absurd (starting.symm.trans passed) (by decide)
    simpa [elsewhere] using course.joined other passed
  settings other returned := by
    by_cases same : other = party
    · subst same
      exact taken (by simpa using returned)
    · exact course.settings other (by simpa [same] using returned)

/-- Reading a message keeps what has arrived behind it. -/
theorem OnCourse.take (course : OnCourse s) {lane : Lane} {after : ByteStream IoError}
    (kept : after.ending = (s.pipe lane).recv.ending) :
    OnCourse (s.setPipe lane ((s.pipe lane).take after)) := by
  have same : ∀ {other : Lane}, other = lane → s.pipe other = s.pipe lane := fun equal => by rw [equal]
  refine course.move rfl rfl (fun _ departed => departed) id (fun _ _ writes => writes) ?_ ?_ course.joined
    (course.settings_setPipe fun _ => rfl) (course.idle lane) (course.finished lane) ?_
  · refine course.client.frame ?_
    rw [State.pipe_setPipe]
    split
    next equal =>
      rw [same equal]
      exact And.intro
    next => exact And.intro
  · refine course.server.frame ?_ ?_ ?_ id
    · rw [State.pipe_setPipe]
      split
      · exact fun _ => rfl
      · exact id
    · rw [State.pipe_setPipe]
      split
      next equal =>
        rw [same equal]
        exact id
      next => exact id
    · rw [State.pipe_setPipe]
      split
      next equal =>
        rw [same equal]
        intro ends waits
        exact ends (kept.symm.trans waits)
      next => exact id
  · intro ends
    refine course.ended lane (fun waits => ends ?_)
    exact kept.trans waits

/-- The client goes on to its next phase, and so does what it writes. -/
theorem OnCourse.client_moves (course : OnCourse s) {client : Client backend url http} (id : Option VarInt)
    {lane : Lane} {pipe : Pipe IoError} (before : s.departed .client = false)
    (starting : ∀ error, client ≠ .failed error) (left : client ≠ .cancelled)
    (passed : client = .settings ∨ (s.exchange .client).Joined)
    (writing : ∀ other, other ≠ lane → s.writing other = true → State.writing { s with client } other = true)
    (taken : (s.pipe lane).taken = true → pipe.taken = true)
    (finishes : (s.pipe lane).finished = true → pipe.finished = true)
    (ending : (s.pipe lane).recv.ending ≠ .waiting → pipe.recv.ending ≠ .waiting)
    (idle : State.writing { s with client } lane = false → pipe.buf = [])
    (finished : pipe.finished = true → s.departed lane.sender = true ∨ lane = .response ∧ s.server = .stopping)
    (ended : pipe.recv.ending ≠ .waiting → pipe.sent ≠ none ∧ pipe.inFlight = [] ∧ pipe.buf = []) :
    OnCourse { s.setPipe lane pipe with client, id } := by
  have stays : ∀ party, s.departed party = true →
      State.departed { s.setPipe lane pipe with client, id } party = true := by
    intro party departed
    cases party with
    | client => exact absurd (before.symm.trans departed) (by decide)
    | server => exact departed
  refine course.move rfl rfl stays (fun stopping => stopping) writing ?_ ?_ ?_ (course.settings_setPipe taken) idle
    (fun ends => (finished ends).imp (stays _) (fun same => same)) ended
  · cases client with
    | failed error => exact absurd rfl (starting error)
    | cancelled => exact absurd rfl left
    | _ => trivial
  · refine course.server.frame ?_ ?_ ?_ ?_
    · intro known
      change ((s.setPipe lane pipe).pipe .request).taken = true
      rw [State.pipe_setPipe]
      split
      next equal =>
        rw [equal] at known
        exact taken known
      next => exact known
    · intro known
      change ((s.setPipe lane pipe).pipe .response).finished = true
      rw [State.pipe_setPipe]
      split
      next equal =>
        rw [equal] at known
        exact finishes known
      next => exact known
    · intro known
      change ((s.setPipe lane pipe).pipe .response).recv.ending ≠ .waiting
      rw [State.pipe_setPipe]
      split
      next equal =>
        rw [equal] at known
        exact ending known
      next => exact known
    · intro departed
      exact absurd (before.symm.trans departed) (by decide)
  · intro party later
    cases party with
    | client =>
        rcases passed with settings | joined
        · rw [settings] at later
          cases later
        · exact joined
    | server => exact course.joined .server later

/-- The server goes on to its next phase. -/
theorem OnCourse.server_moves (course : OnCourse s) {server : Server backend url http}
    (answered : Option (Answer http)) {lane : Lane} {pipe : Pipe IoError} (before : s.departed .server = false)
    (unstopped : s.server ≠ .stopping) (passed : (s.exchange .server).Joined)
    (phase : server.OnCourse ((s.setPipe lane pipe).pipe .request) ((s.setPipe lane pipe).pipe .response)
      (s.departed .client))
    (client : s.client.OnCourse s.id answered ((s.setPipe lane pipe).pipe .response))
    (writing : ∀ other, other ≠ lane → s.writing other = true → State.writing { s with server } other = true)
    (taken : (s.pipe lane).taken = true → pipe.taken = true)
    (idle : State.writing { s with server } lane = false → pipe.buf = [])
    (finished : pipe.finished = true → s.departed lane.sender = true ∨ lane = .response ∧ server = .stopping)
    (ended : pipe.recv.ending ≠ .waiting → pipe.sent ≠ none ∧ pipe.inFlight = [] ∧ pipe.buf = []) :
    OnCourse { s.setPipe lane pipe with server, answered } := by
  have stays : ∀ party, s.departed party = true →
      State.departed { s.setPipe lane pipe with server, answered } party = true := by
    intro party departed
    cases party with
    | client => exact departed
    | server => exact absurd (before.symm.trans departed) (by decide)
  refine course.move rfl rfl stays (fun stopping => absurd stopping unstopped) writing client phase ?_
    (course.settings_setPipe taken) idle (fun ends => (finished ends).imp (stays _) (fun same => same)) ended
  intro party later
  cases party with
  | client => exact course.joined .client later
  | server => exact passed

variable (course : OnCourse s) (consistent : Consistent setup s)

include course consistent

theorem OnCourse.openedBi (phase : s.client = .settings) (joined : (s.exchange .client).Joined) (id : VarInt) :
    OnCourse
      { s.setPipe .request ((s.pipe .request).begin_ setup.requestBytes) with
        id := some id
        client := .writeRequest id } := by
  have client := consistent.client
  rw [phase] at client
  have unsent : (s.pipe .request).sent = none := by rw [consistent.request, client.1]; rfl
  have before : s.departed .client = false := by simp [State.departed, phase]
  refine course.client_moves _ before (fun _ => nofun) nofun (.inr joined) ?_ (fun known => known)
    (fun known => known) (fun known => known) (fun silent => by cases silent) (course.finished .request) ?_
  · intro other differs writes
    cases other with
    | control party =>
        cases party with
        | client =>
            simp only [State.writing, Bool.and_eq_true, decide_eq_true_eq] at writes
            rw [joined.1] at writes
            cases writes.2
        | server => exact writes
    | request => exact absurd rfl differs
    | response => exact writes
  · intro ends
    exact absurd unsent (course.ended .request ends).1

omit consistent in
theorem OnCourse.acceptedBi (phase : s.server = .settings) (joined : (s.exchange .server).Joined) (id : VarInt) :
    OnCourse { s with server := .readRequest id } := by
  have before : s.departed .server = false := by simp [State.departed, phase]
  have same : { s with server := .readRequest id } =
      { s.setPipe .request (s.pipe .request) with server := .readRequest id, answered := s.answered } := by
    simp [State.setPipe]
  have response : (s.setPipe .request (s.pipe .request)).pipe .response = s.pipe .response := by simp
  rw [same]
  refine course.server_moves _ before (by simp [phase]) joined trivial ?_ ?_ (fun known => known)
    (course.idle .request)
    ?_ (course.ended .request)
  · rw [response]
    exact course.client
  · intro other differs writes
    cases other with
    | control party =>
        cases party with
        | client => exact writes
        | server =>
            simp only [State.writing, Bool.and_eq_true, decide_eq_true_eq] at writes
            rw [joined.1] at writes
            cases writes.2
    | request => exact absurd rfl differs
    | response => simp [State.writing, phase] at writes
  · intro ends
    exact (course.finished .request ends).imp (fun departed => departed) (fun lacks => by cases lacks.1)

omit consistent in
theorem OnCourse.readRequest {id : VarInt} {request : ConnectRequest url.toUrlCrate} {recv : ByteStream IoError}
    (phase : s.server = .readRequest id)
    (read : ConnectRequest.read url.toUrlCrate http.toHttpCrate (setup.iterate .server) (s.pipe .request).recv =
      .done request recv) :
    OnCourse { s.setPipe .request ((s.pipe .request).take recv) with server := .request id request } := by
  obtain ⟨kept, _⟩ := (ConnectRequest.read_incremental _ _ _ (s.pipe .request).recv).done read
  have before : s.departed .server = false := by simp [State.departed, phase]
  have passed : s.starting .server = false := by simp [State.starting, phase]
  have response : (s.setPipe .request ((s.pipe .request).take recv)).pipe .response = s.pipe .response := by simp
  refine course.server_moves s.answered before (by simp [phase]) (course.joined .server passed) ?_ ?_ ?_
    (fun _ => rfl) (course.idle .request) ?_ ?_
  · change ((s.setPipe .request _).pipe .request).taken = true
    rw [State.pipe_setPipe, if_pos rfl]
    rfl
  · rw [response]
    exact course.client
  · intro other differs writes
    cases other with
    | control party =>
        cases party with
        | client => exact writes
        | server => simp [State.writing, passed] at writes
    | request => exact absurd rfl differs
    | response => simp [State.writing, phase] at writes
  · intro ends
    exact (course.finished .request ends).imp (fun departed => departed) (fun lacks => by cases lacks.1)
  · intro ends
    refine course.ended .request (fun waits => ends ?_)
    exact kept.trans waits

theorem OnCourse.answered {id : VarInt} {request : ConnectRequest url.toUrlCrate} (choice : Answer http)
    (phase : s.server = .request id request) :
    OnCourse
      { s.setPipe .response ((s.pipe .response).begin_ (setup.responseBytes choice)) with
        answered := some choice
        server := .respond id request } := by
  have server := consistent.server
  have heard := course.server
  rw [phase] at server heard
  have unsent : (s.pipe .response).sent = none := by rw [consistent.response, server.2.2]; rfl
  have before : s.departed .server = false := by simp [State.departed, phase]
  have passed : s.starting .server = false := by simp [State.starting, phase]
  have request : (s.setPipe .response ((s.pipe .response).begin_ (setup.responseBytes choice))).pipe .request =
      s.pipe .request := by simp
  refine course.server_moves _ before (by simp [phase]) (course.joined .server passed) ?_ ?_ ?_
    (fun known => known) (fun silent => by cases silent) ?_ ?_
  · rw [request]
    exact heard
  · have client := course.client
    cases other : s.client with
    | failed error =>
        rw [other] at client
        obtain ⟨_, ⟨answer, answered, _⟩, _⟩ := client
        cases answered.symm.trans server.2.2
    | cancelled =>
        rw [other] at client
        exact client.elim
    | _ => trivial
  · intro other differs writes
    cases other with
    | control party =>
        cases party with
        | client => exact writes
        | server => simp [State.writing, passed] at writes
    | request => exact writes
    | response => exact absurd rfl differs
  · intro ends
    rcases course.finished .response ends with departed | ⟨_, stops⟩
    · exact .inl departed
    · rw [phase] at stops
      cases stops
  · intro ends
    exact absurd unsent (course.ended .response ends).1

omit consistent in
theorem OnCourse.readResponse {id : VarInt} {response : ConnectResponse http.toHttpCrate}
    {recv : ByteStream IoError} (phase : s.client = .readResponse id)
    (read : ConnectResponse.read url.toUrlCrate http.toHttpCrate (setup.iterate .client) (s.pipe .response).recv =
      .done response recv) :
    OnCourse
      { s.setPipe .response ((s.pipe .response).take recv) with
        client := .connected (.new id setup.request.url) } := by
  obtain ⟨kept, _⟩ := (ConnectResponse.read_incremental _ _ _ (s.pipe .response).recv).done read
  have before : s.departed .client = false := by simp [State.departed, phase]
  have passed : s.starting .client = false := by simp [State.starting, phase]
  refine course.client_moves s.id before (fun _ later => by cases later) (fun later => by cases later)
    (.inr (course.joined .client passed)) ?_
    (fun _ => rfl) (fun known => known) ?_ ?_ (course.finished .response) ?_
  · intro other differs writes
    cases other with
    | control party =>
        cases party with
        | client => simp [State.writing, passed] at writes
        | server => exact writes
    | request => simp [State.writing, phase] at writes
    | response => exact absurd rfl differs
  · intro ends waits
    exact ends (kept.symm.trans waits)
  · intro silent
    exact course.idle .response silent
  · intro ends
    refine course.ended .response (fun waits => ends ?_)
    exact kept.trans waits

theorem OnCourse.wroteRequest {id : VarInt} {count : Nat} {pipe : Pipe IoError} (phase : s.client = .writeRequest id)
    (written : (s.pipe .request).write count = some pipe) (all : pipe.buf = []) :
    OnCourse { s.setPipe .request pipe with client := .readResponse id } := by
  obtain ⟨positive, enough, _, rfl⟩ := Pipe.write_cases written
  have before : s.departed .client = false := by simp [State.departed, phase]
  have passed : s.starting .client = false := by simp [State.starting, phase]
  refine course.client_moves s.id before (fun _ later => by cases later) (fun later => by cases later)
    (.inr (course.joined .client passed)) ?_
    (fun known => known) (fun known => known) (fun known => known) (fun _ => all) (course.finished .request) ?_
  · intro other differs writes
    cases other with
    | control party =>
        cases party with
        | client => simp [State.writing, passed] at writes
        | server => exact writes
    | request => exact absurd rfl differs
    | response => exact writes
  · intro ends
    have unwritten := consistent.writing .request (by rw [State.writing, phase])
    exact absurd (course.ended .request ends).2.2 unwritten

/-- The server has written its answer. -/
theorem OnCourse.wroteResponse {server : Server backend url http} {id : VarInt}
    {request : ConnectRequest url.toUrlCrate} {count : Nat} {pipe last : Pipe IoError}
    (phase : s.server = .respond id request) (written : (s.pipe .response).write count = some pipe)
    (all : pipe.buf = []) (same : last = pipe ∨ last = pipe.finish)
    (goes : server.OnCourse (s.pipe .request) last (s.departed .client))
    (writing : ∀ lane, s.writing lane = true → lane.sender = .client →
      State.writing { s with server } lane = true)
    (finished : last.finished = true → server = .stopping) :
    OnCourse { s.setPipe .response last with server } := by
  obtain ⟨positive, enough, _, rfl⟩ := Pipe.write_cases written
  have unwritten := consistent.writing .response (by rw [State.writing, phase])
  have before : s.departed .server = false := by simp [State.departed, phase]
  have passed : s.starting .server = false := by simp [State.starting, phase]
  have kept : last.buf = [] ∧ last.recv = (s.pipe .response).recv ∧ last.taken = (s.pipe .response).taken := by
    rcases same with rfl | rfl <;> exact ⟨all, rfl, rfl⟩
  have requestPipe : (s.setPipe .response last).pipe .request = s.pipe .request := by simp
  have responsePipe : (s.setPipe .response last).pipe .response = last := by simp
  refine course.server_moves s.answered before (by simp [phase]) (course.joined .server passed) ?_ ?_ ?_
    kept.2.2.trans (fun _ => kept.1) (fun ends => .inr ⟨rfl, finished ends⟩) ?_
  · rw [requestPipe, responsePipe]
    exact goes
  · rw [responsePipe]
    refine course.client.frame ?_
    intro _ empty
    exact absurd empty unwritten
  · intro other differs writes
    cases other with
    | control party =>
        cases party with
        | client => exact writing _ writes rfl
        | server => simp [State.writing, passed] at writes
    | request => exact writing _ writes rfl
    | response => exact absurd rfl differs
  · intro ends
    rw [kept.2.1] at ends
    exact absurd (course.ended .response ends).2.2 unwritten

omit consistent in
theorem OnCourse.rejected (phase : s.server = .stopping)
    (cause : (s.pipe .response).recv.ending ≠ .waiting ∨ s.lost .server ≠ none ∨ s.departed .client = true) :
    OnCourse { s.retire .server with server := .rejected } := by
  have server := course.server
  rw [phase] at server
  refine course.retire rfl rfl rfl ?_ rfl (fun _ => .inr rfl) ?_ ?_ ?_ ?_
  · intro other departed
    cases other with
    | client => exact departed
    | server => rfl
  · intro lane
    cases lane with
    | control party =>
        cases party with
        | client => rfl
        | server => simp [State.writing, State.starting, phase]
    | request => rfl
    | response => simp [State.writing, phase]
  · intro other
    cases other with
    | client => rfl
    | server => simp [State.starting, phase]
  · refine course.client.frame ?_
    intro landed written
    rcases retire_cases s .server .response with same | ⟨_, same⟩
    · exact ⟨by rw [same]; exact landed, by rw [same]; exact written⟩
    · exact ⟨by rw [same]; exact landed, by rw [same]; exact written⟩
  · have request := (carried_retire s .server .request).taken
    refine ⟨request.trans server.1, ?_⟩
    rcases cause with ends | lost | departed
    · left
      rcases retire_cases s .server .response with same | ⟨_, same⟩
      · change ((s.retire .server).pipe .response).recv.ending ≠ .waiting
        rw [same]
        exact ends
      · change ((s.retire .server).pipe .response).recv.ending ≠ .waiting
        rw [same]
        exact ends
    · exact .inr (course.lost .server lost)
    · exact .inr departed

theorem OnCourse.failed {id : VarInt} {answer : Answer http} (phase : s.client = .readResponse id)
    (answered : s.answered = some answer) (status : answer.status ≠ http.ok)
    (landed : (s.pipe .response).inFlight = []) (written : (s.pipe .response).buf = []) :
    OnCourse (s.fail .client (.connectError (.errorStatus answer.status))) := by
  have opened := consistent.client
  rw [phase] at opened
  have response : ((s.retire .client).pipe .response).recv = (s.pipe .response).recv ∧
      ((s.retire .client).pipe .response).inFlight = (s.pipe .response).inFlight ∧
      ((s.retire .client).pipe .response).finished = (s.pipe .response).finished := by
    rcases retire_cases s .client .response with same | ⟨lacks, _⟩
    · rw [same]
      exact ⟨rfl, rfl, rfl⟩
    · cases lacks
  rw [State.fail, State.leave, dropGuard_eq]
  refine course.retire rfl rfl rfl ?_ rfl (fun stops => .inl stops) ?_ ?_ ?_ ?_
  · intro other departed
    cases other with
    | client => rfl
    | server => exact departed
  · intro lane
    cases lane with
    | control party =>
        cases party with
        | client => simp [State.writing, State.starting, phase, Client.ended]
        | server => rfl
    | request => simp [State.writing, phase, Client.ended]
    | response => rfl
  · intro other
    cases other with
    | client => simp [State.starting, phase, Client.ended]
    | server => rfl
  · refine ⟨?_, ⟨answer, answered, status, rfl⟩, response.2.1.trans landed, ?_⟩
    · change s.id ≠ none
      rw [opened.1]
      exact Option.some_ne_none id
    · exact (buf_retire s .client .response).trans written
  · refine course.server.frame ?_ ?_ ?_ (fun _ => rfl)
    · exact (carried_retire s .client .request).taken.trans
    · exact response.2.2.trans
    · intro ends waits
      rw [← response.1] at ends
      exact ends waits

/-- Nobody fails, but for the client of a refused request. -/
theorem onCourse_step (lawful : setup.Lawful) {event : Event backend http} (undisturbed : Undisturbed s event)
    (stepped : step setup s event = some next) : OnCourse next := by
  cases moves_of_step stepped with
  | fails fails =>
      obtain ⟨rfl, id, answer, phase, answered, status, rfl, landed, written⟩ :=
        course.refused consistent lawful fails
      exact course.failed consistent phase answered status landed written
  | openedUni starting unopened => exact course.openedUni consistent starting unopened
  | acceptedUni starting unaccepted => exact course.setExchange starting (fun write other => absurd write other) nofun
  | @readSettings party settings recv starting reading read =>
      obtain ⟨kept, _⟩ := (Settings.read_incremental _).done read
      have taken := @OnCourse.take _ _ _ s course (.control party.peer) recv kept
      refine taken.setExchange ?_ (fun write other => absurd write other) ?_
      · rw [State.starting_setPipe]
        exact starting
      intro _
      rw [State.pipe_setPipe, if_pos rfl]
      rfl
  | openedBi starting joined => exact course.openedBi consistent (client_of_starting starting) joined _
  | acceptedBi starting joined => exact course.acceptedBi (server_of_starting starting) joined _
  | readRequest phase read => exact course.readRequest phase read
  | answered choice phase => exact course.answered consistent choice phase
  | readResponse phase read => exact course.readResponse phase read
  | rejected phase cause =>
      rcases cause with ⟨party, rfl⟩ | cause
      · exact undisturbed.elim
      · exact course.rejected phase cause
  | wrote writing written more =>
      obtain ⟨positive, enough, _, rfl⟩ := Pipe.write_cases written
      have unwritten := consistent.writing _ writing
      refine course.setPipe rfl rfl (fun ends => ends) (fun _ empty => absurd empty unwritten) ?_ ?_
      · intro silent
        exact absurd (writing.symm.trans silent) (by decide)
      · intro ends
        exact absurd (course.ended _ ends).2.2 unwritten
  | @wroteSettings party count pipe writing written all =>
      obtain ⟨positive, enough, _, rfl⟩ := Pipe.write_cases written
      have unwritten := consistent.writing _ writing
      have wrote : OnCourse (s.setPipe (.control party) { s.pipe (.control party) with
          buf := (s.pipe (.control party)).buf.drop count
          inFlight := (s.pipe (.control party)).inFlight ++ (s.pipe (.control party)).buf.take count }) := by
        refine course.setPipe rfl rfl (fun ends => ends) (fun _ empty => absurd empty unwritten) (fun _ => all) ?_
        intro ends
        exact absurd (course.ended _ ends).2.2 unwritten
      simp only [State.writing, Bool.and_eq_true] at writing
      refine wrote.setExchange ?_ ?_ (wrote.settings party)
      · rw [State.starting_setPipe]
        exact writing.1
      · intro _ _
        rw [State.pipe_setPipe, if_pos rfl]
        exact all
  | wroteRequest phase written all => exact course.wroteRequest consistent phase written all
  | @accepted id request count pipe phase ok written all =>
      have heard := course.server
      rw [phase] at heard
      refine course.wroteResponse consistent phase written all (.inl rfl) heard ?_ ?_
      · intro lane writes sender
        cases lane with
        | control party =>
            cases sender
            exact writes
        | request => exact writes
        | response => cases sender
      · intro ends
        obtain ⟨_, _, _, rfl⟩ := Pipe.write_cases written
        rcases course.finished .response ends with departed | ⟨_, stops⟩
        · simp [State.departed, Lane.sender, phase] at departed
        · rw [phase] at stops
          cases stops
  | refused phase refusal written all =>
      have heard := course.server
      rw [phase] at heard
      refine course.wroteResponse consistent phase written all (.inr rfl) ⟨heard, rfl⟩ ?_ (fun _ => rfl)
      intro lane writes sender
      cases lane with
      | control party =>
          cases sender
          exact writes
      | request => exact writes
      | response => cases sender
  | respondFailed phase cause =>
      have departed : s.departed .client = true := by
        rcases cause with ⟨party, rfl⟩ | lost | departed
        · exact undisturbed.elim
        · exact course.lost .server lost
        · exact departed
      have stays := @OnCourse.reader_stays _ _ _ _ s course consistent .response (by rw [State.writing, phase])
      exact absurd (stays.symm.trans departed) (by decide)
  | delivered delivered =>
      obtain ⟨positive, enough, waiting, _, rfl⟩ := Pipe.deliver_cases delivered
      refine course.setPipe rfl rfl (fun ends => absurd waiting ends) ?_ (course.idle _) (fun ends => absurd rfl ends)
      intro empty
      rw [empty, List.length_nil] at enough
      omega
  | deliveredEnd delivered =>
      obtain ⟨finished, landed, waiting, _, rfl⟩ := Pipe.deliverEnd_cases delivered
      refine course.setPipe rfl rfl (fun ends => absurd waiting ends) And.intro (course.idle _) ?_
      intro _
      rcases course.finished _ finished with departed | ⟨rfl, stops⟩
      · exact course.drained_of_departed consistent departed
      · have server := consistent.server
        rw [stops] at server
        obtain ⟨_, answer, answered, _, written⟩ := server
        refine ⟨?_, landed, written⟩
        rw [consistent.response, answered]
        exact Option.some_ne_none _
  | lost error io whole => exact course.lose consistent undisturbed error io
  | cancelled active => exact undisturbed.elim

end OnCourse

end Webtrans.Session.Handshake
