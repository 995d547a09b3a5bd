import Webtrans.Session.HandshakeCourse

namespace Webtrans.Session.Handshake

open Webtrans.Data Webtrans.Proto

/-! What holds of whole runs of the handshake: both ends agree, every run ends,
and an undisturbed one goes on until both ends have settled on the answer of
the application. -/

variable {backend : Backend} {url : ClientUrlCrate} {http : StatusCrate} {setup : Setup url http}

/-- Both ends have made of the answer what it says. -/
def Settled (setup : Setup url http) (s : State backend url http) : Prop :=
  ∃ id answer, s.id = some id ∧ s.answered = some answer ∧
    s.client = (if answer.status = http.ok then .connected (.new id setup.request.url)
      else .failed (.connectError (.errorStatus answer.status))) ∧
    s.server = match answer with
      | .ok => .accepted (.new id setup.request.url)
      | _ => .rejected

/-- What the two parties and the transport do, for an application that makes
this choice. -/
def Proceeds (choice : Answer http) : Event backend http → Prop
  | .answer answer => answer = choice
  | .lose _ _ _ | .cancel _ => False
  | _ => True

theorem undisturbed_of_proceeds {s : State backend url http} {choice : Answer http} {event : Event backend http}
    (proceeds : Proceeds choice event) : Undisturbed s event := by
  cases event with
  | lose party error io => exact proceeds.elim
  | cancel party => exact proceeds.elim
  | _ => trivial

def Possible (setup : Setup url http) (s : State backend url http) (choice : Answer http) : Prop :=
  ∃ event, Proceeds choice event ∧ step setup s event ≠ none

section Progress

variable {s : State backend url http} (course : OnCourse s) (consistent : Consistent setup s) (choice : Answer http)

include course

theorem OnCourse.delivers {lane : Lane} (unlanded : (s.pipe lane).inFlight ≠ []) : Possible setup s choice := by
  have waiting : (s.pipe lane).recv.ending = .waiting := by
    by_contra ends
    exact unlanded (course.ended lane ends).2.1
  have some_ : 0 < 1 ∧ 1 ≤ (s.pipe lane).inFlight.length ∧ (s.pipe lane).recv.ending = .waiting :=
    ⟨Nat.one_pos, List.length_pos_iff.mpr unlanded, waiting⟩
  refine ⟨.deliver lane 1, trivial, ?_⟩
  rw [step, Pipe.deliver, if_pos some_]
  exact Option.some_ne_none _

include consistent

theorem OnCourse.writes {lane : Lane} (writing : s.writing lane = true) : Possible setup s choice := by
  have whole : s.lost lane.sender = none := by
    by_contra lost
    have departed := course.lost _ lost
    rw [course.reader_stays consistent writing] at departed
    cases departed
  have some_ : 0 < 1 ∧ 1 ≤ (s.pipe lane).buf.length :=
    ⟨Nat.one_pos, List.length_pos_iff.mpr (consistent.writing lane writing)⟩
  refine ⟨.write lane 1, trivial, ?_⟩
  rw [step, write, if_pos writing, whole, Pipe.write, if_pos some_]
  exact Option.some_ne_none _

end Progress

/-- Nothing is under way. -/
def Quiet (s : State backend url http) : Prop :=
  (∀ lane, (s.pipe lane).inFlight = [] ∧ (s.pipe lane).buf = []) ∧ ∀ lane, s.writing lane = false

theorem OnCourse.quiet_or {s : State backend url http} (course : OnCourse s) (consistent : Consistent setup s)
    (choice : Answer http) : Quiet s ∨ Possible setup s choice := by
  by_cases writing : ∃ lane, s.writing lane = true
  · obtain ⟨lane, writing⟩ := writing
    exact .inr (course.writes consistent choice writing)
  by_cases landed : ∃ lane, (s.pipe lane).inFlight ≠ []
  · obtain ⟨lane, unlanded⟩ := landed
    exact .inr (course.delivers choice unlanded)
  have silent : ∀ lane, s.writing lane = false := fun lane => by simpa using not_exists.mp writing lane
  exact .inl ⟨fun lane => ⟨not_not.mp (not_exists.mp landed lane), course.idle lane (silent lane)⟩, silent⟩

theorem announced_of_quiet {s : State backend url http} (consistent : Consistent setup s) (quiet : Quiet s)
    {lane : Lane} {message : List UInt8} (untaken : (s.pipe lane).taken = false)
    (sent : (s.pipe lane).sent = some message) (nonempty : message ≠ []) : announced (s.pipe lane) = true := by
  have arrived := (consistent.valid lane).untaken untaken sent
  rw [(quiet.1 lane).1, (quiet.1 lane).2, List.append_nil, List.append_nil] at arrived
  rw [announced, arrived]
  cases message with
  | nil => exact absurd rfl nonempty
  | cons byte message => rfl

theorem received_of_quiet {s : State backend url http} (consistent : Consistent setup s) (quiet : Quiet s)
    {ε α : Type} {reader : ByteStream IoError → Read IoError ε α} {lane : Lane} {message : List UInt8}
    {value : α}
    (untaken : (s.pipe lane).taken = false) (sent : (s.pipe lane).sent = some message)
    (receives : Receives reader message value) (incremental : Incremental reader) :
    ∃ after, reader (s.pipe lane).recv = .done value after := by
  rcases (consistent.valid lane).pending_or_received untaken sent receives incremental (fun _ => quiet.1 lane) with
    ⟨_, unsent⟩ | received
  · rw [(quiet.1 lane).1, (quiet.1 lane).2] at unsent
    exact absurd rfl unsent
  · exact received

theorem openUni_possible {s : State backend url http} (choice : Answer http) {party : Party}
    (starting : s.starting party = true) (unopened : (s.exchange party).send = .openUni) :
    Possible setup s choice := by
  refine ⟨.openUni party, trivial, ?_⟩
  rw [step, openUni, if_pos ⟨starting, unopened⟩]
  split <;> exact Option.some_ne_none _

section Quiet

variable {s : State backend url http} (course : OnCourse s) (consistent : Consistent setup s) (quiet : Quiet s)
  (choice : Answer http)

include course consistent quiet

/-- The exchange of the settings is not where a handshake gets stuck. -/
theorem OnCourse.joined_or (party : Party) (starting : s.starting party = true) :
    (s.exchange party).Joined ∨ Possible setup s choice := by
  have opened : ∀ other : Party, (s.exchange other).send = .openUni → Possible setup s choice := by
    intro other unopened
    by_cases begins : s.starting other = true
    · exact openUni_possible choice begins unopened
    · have joined := course.joined other (by simpa using begins)
      cases unopened.symm.trans joined.1
  cases sends : (s.exchange party).send with
  | openUni => exact .inr (opened party sends)
  | write =>
      have writing : s.writing (.control party) = true := by simp [State.writing, starting, sends]
      exact absurd (writing.symm.trans (quiet.2 _)) (by decide)
  | returned =>
      by_cases unopened : (s.exchange party.peer).send = .openUni
      · exact .inr (opened _ unopened)
      have sent : (s.pipe (.control party.peer)).sent = some (setup.settingsBytes party.peer) :=
        (consistent.control _).trans (if_neg unopened)
      cases receives : (s.exchange party).recv with
      | acceptUni =>
          have untaken := consistent.unread party (by simp [receives])
          have arrived := announced_of_quiet consistent quiet untaken sent (Setup.settingsBytes_ne_nil _)
          refine .inr ⟨.acceptUni party, trivial, ?_⟩
          rw [step, acceptUni, if_pos ⟨starting, receives⟩, if_pos arrived]
          exact Option.some_ne_none _
      | read =>
          have untaken := consistent.unread party (by simp [receives])
          obtain ⟨after, read⟩ := received_of_quiet consistent quiet untaken sent (Setup.settings_receives _)
            Settings.read_incremental
          refine .inr ⟨.readSettings party, trivial, ?_⟩
          rw [step, readSettings, if_pos ⟨starting, receives⟩, read]
          dsimp only
          split <;> exact Option.some_ne_none _
      | returned => exact .inl ⟨sends, receives⟩

/-- The client has sent its request. -/
theorem OnCourse.opened_or : (∃ id, s.id = some id) ∨ Possible setup s choice := by
  have holds := consistent.client
  have goes := course.client
  cases phase : s.client with
  | settings =>
      have starting : s.starting .client = true := by rw [State.starting, phase]
      rcases course.joined_or consistent quiet choice .client starting with joined | possible
      · refine .inr ⟨.openBi (VarInt.fromU32 0), trivial, ?_⟩
        rw [step, openBi, if_pos ⟨starting, joined⟩]
        split <;> exact Option.some_ne_none _
      · exact .inr possible
  | writeRequest id =>
      rw [phase] at holds
      exact .inl ⟨id, holds.1⟩
  | readResponse id =>
      rw [phase] at holds
      exact .inl ⟨id, holds.1⟩
  | connected session =>
      rw [phase] at holds
      obtain ⟨⟨id, opened, _⟩, _⟩ := holds
      exact .inl ⟨id, opened⟩
  | failed error =>
      rw [phase] at goes
      exact .inl (Option.ne_none_iff_exists'.mp goes.1)
  | cancelled =>
      rw [phase] at goes
      exact goes.elim

/-- The client makes of the answer what it says. -/
theorem OnCourse.client_settles (lawful : setup.Lawful) {id : VarInt} {answer : Answer http}
    (opened : s.id = some id) (answered : s.answered = some answer) :
    s.client = (if answer.status = http.ok then .connected (.new id setup.request.url)
      else .failed (.connectError (.errorStatus answer.status))) ∨ Possible setup s choice := by
  have holds := consistent.client
  have goes := course.client
  cases phase : s.client with
  | settings =>
      rw [phase] at holds
      cases opened.symm.trans holds.1
  | writeRequest own =>
      have writing : s.writing .request = true := by rw [State.writing, phase]
      exact absurd (writing.symm.trans (quiet.2 _)) (by decide)
  | readResponse own =>
      rw [phase] at holds
      have sent : (s.pipe .response).sent = some (setup.responseBytes answer) := by
        rw [consistent.response, answered]
        rfl
      obtain ⟨after, read⟩ := received_of_quiet consistent quiet holds.2 sent
        (Setup.response_receives lawful .client answer) (ConnectResponse.read_incremental _ _ _)
      refine .inr ⟨.readResponse, trivial, ?_⟩
      rw [step, Handshake.readResponse, phase]
      dsimp only
      rw [read]
      dsimp only
      split <;> exact Option.some_ne_none _
  | connected session =>
      rw [phase] at holds
      obtain ⟨⟨own, found, same⟩, _, other, known, ok⟩ := holds
      cases opened.symm.trans found
      cases answered.symm.trans known
      rw [if_pos ok, same]
      exact .inl rfl
  | failed error =>
      rw [phase] at goes
      obtain ⟨_, ⟨other, known, refused, same⟩, _⟩ := goes
      cases answered.symm.trans known
      rw [if_neg refused, same]
      exact .inl rfl
  | cancelled =>
      rw [phase] at goes
      exact goes.elim

/-- A handshake that has not settled has a next step. -/
theorem OnCourse.settled_or (lawful : setup.Lawful) : Settled setup s ∨ Possible setup s choice := by
  have holds := consistent.server
  have goes := course.server
  rcases course.opened_or consistent quiet choice with ⟨id, opened⟩ | possible
  case inr => exact .inr possible
  have sent : (s.pipe .request).sent = some setup.requestBytes := by
    rw [consistent.request, opened]
    rfl
  have settles : ∀ answer, s.answered = some answer →
      (s.server = match answer with
        | .ok => .accepted (.new id setup.request.url)
        | _ => .rejected) → Settled setup s ∨ Possible setup s choice := by
    intro answer answered server
    rcases course.client_settles consistent quiet choice lawful opened answered with client | possible
    · exact .inl ⟨id, answer, opened, answered, client, server⟩
    · exact .inr possible
  cases phase : s.server with
  | settings =>
      have starting : s.starting .server = true := by rw [State.starting, phase]
      rw [phase] at holds
      rcases course.joined_or consistent quiet choice .server starting with joined | possible
      · have arrived := announced_of_quiet consistent quiet holds.2 sent (Setup.encodeHeadersFrame_ne_nil _ _)
        refine .inr ⟨.acceptBi, trivial, ?_⟩
        rw [step, Handshake.acceptBi, if_pos ⟨starting, joined⟩, opened, arrived]
        exact Option.some_ne_none _
      · exact .inr possible
  | readRequest own =>
      rw [phase] at holds
      obtain ⟨after, read⟩ := received_of_quiet consistent quiet holds.2.2 sent
        (Setup.request_receives lawful .server) (ConnectRequest.read_incremental _ _ _)
      refine .inr ⟨.readRequest, trivial, ?_⟩
      rw [step, Handshake.readRequest, phase]
      dsimp only
      rw [read]
      exact Option.some_ne_none _
  | request own asked =>
      refine .inr ⟨.answer choice, rfl, ?_⟩
      rw [step, answer, phase]
      exact Option.some_ne_none _
  | respond own asked =>
      have writing : s.writing .response = true := by rw [State.writing, phase]
      exact absurd (writing.symm.trans (quiet.2 _)) (by decide)
  | accepted session =>
      rw [phase] at holds
      obtain ⟨⟨own, found, same⟩, ok, _⟩ := holds
      cases opened.symm.trans found
      refine settles .ok ok ?_
      rw [phase, same]
  | stopping =>
      rw [phase] at goes
      by_cases waits : (s.pipe .response).recv.ending = .waiting
      · refine .inr ⟨.deliverEnd .response, trivial, ?_⟩
        rw [step, Pipe.deliverEnd, if_pos ⟨goes.2, (quiet.1 _).1, waits⟩]
        exact Option.some_ne_none _
      · refine .inr ⟨.stopped, trivial, ?_⟩
        rw [step, stopped, phase]
        dsimp only
        rw [if_pos (.inl waits)]
        exact Option.some_ne_none _
  | rejected =>
      rw [phase] at holds
      obtain ⟨_, answer, answered, refused, _⟩ := holds
      refine settles answer answered ?_
      cases answer with
      | ok => exact absurd rfl refused
      | close status => exact phase
      | drop => exact phase
  | failed error =>
      rw [phase] at goes
      exact goes.elim
  | respondFailed error =>
      rw [phase] at goes
      exact goes.elim
  | cancelled =>
      rw [phase] at goes
      exact goes.elim

end Quiet

theorem answered_of_step {s next : State backend url http} {event : Event backend http}
    (stepped : step setup s event = some next) :
    next.answered = s.answered ∨ ∃ choice, event = .answer choice ∧ next.answered = some choice := by
  have leave : ∀ party error, (s.leave party error).answered = s.answered := by
    intro party error
    cases party with
    | client =>
        rw [State.leave, dropGuard_eq]
        rfl
    | server =>
        rw [State.leave, dropGuard_eq]
        rfl
  cases moves_of_step stepped with
  | fails fails => exact .inl (leave _ _)
  | cancelled active => exact .inl (leave _ _)
  | answered choice phase => exact .inr ⟨choice, rfl, rfl⟩
  | _ => exact .inl rfl

/-- A state of an undisturbed run of an application that makes this choice. -/
structure Good (setup : Setup url http) (choice : Answer http) (s : State backend url http) : Prop where
  consistent : Consistent setup s
  course : OnCourse s
  chosen : ∀ answer, s.answered = some answer → answer = choice

theorem good_step (lawful : setup.Lawful) {choice : Answer http} {s next : State backend url http}
    {event : Event backend http} (good : Good setup choice s) (stepped : step setup s event = some next)
    (proceeds : Proceeds choice event) : Good setup choice next where
  consistent := consistent_step good.consistent lawful stepped
  course := onCourse_step good.course good.consistent lawful (undisturbed_of_proceeds proceeds) stepped
  chosen answer answered := by
    rcases answered_of_step stepped with same | ⟨other, rfl, written⟩
    · exact good.chosen answer (same.symm.trans answered)
    · cases written.symm.trans answered
      exact proceeds

theorem OnCourse.settled_or_possible {s : State backend url http} (course : OnCourse s)
    (consistent : Consistent setup s) (lawful : setup.Lawful) (choice : Answer http) :
    Settled setup s ∨ Possible setup s choice := by
  rcases course.quiet_or consistent choice with quiet | possible
  · exact course.settled_or consistent quiet choice lawful
  · exact .inr possible

/-- From here on the handshake settles on the choice. -/
theorem Good.settles {choice : Answer http} {s : State backend url http} (good : Good setup choice s)
    (lawful : setup.Lawful) :
    ∃ last, Reaches (step setup) (Proceeds choice) s last ∧ Good setup choice last ∧ Settled setup last := by
  apply reaches_of_progress (good_step lawful) (fun good stepped _ => good.consistent.work_lt lawful stepped) ?_ good
  intro state good
  rcases good.course.settled_or_possible good.consistent lawful choice with settled | ⟨event, proceeds, enabled⟩
  · exact .inl settled
  · obtain ⟨next, stepped⟩ := Option.ne_none_iff_exists'.mp enabled
    exact .inr ⟨event, next, proceeds, stepped⟩

theorem good_start (choice : Answer http) : Good setup choice (start : State backend url http) :=
  ⟨consistent_start, onCourse_start, nofun⟩

theorem consistent_onCourse_run (lawful : setup.Lawful) {events : List (Event backend http)}
    {s : State backend url http} (ran : run (step setup) start events = some s)
    (undisturbed : EachStep (step setup) Undisturbed start events) : Consistent setup s ∧ OnCourse s := by
  refine @run_eachStep _ _ _ (fun state => Consistent setup state ∧ OnCourse state) _ ?_ _ _ _
    ⟨consistent_start, onCourse_start⟩ undisturbed ran
  intro state event next good met stepped
  exact ⟨consistent_step good.1 lawful stepped, onCourse_step good.2 good.1 lawful met stepped⟩

/-- A client that asks for the room, and hash maps that the encoders run
through in some order. -/
def roomSetup (iterate : ∀ headers : Qpack.Headers, headers.Iteration) :
    Setup ConnectRequest.roomUrls ConnectResponse.sampleStatuses where
  request := ConnectRequest.roomRequest
  requestOrder := ConnectRequest.roomIteration
  settingsOrder _ := ⟨Settings.enabledEntries, Settings.enabled_entries.symm, Settings.enabledEntries_allocated⟩
  responseOrder _ := ConnectResponse.iteration _
  iterate _ := iterate

theorem roomSetup_lawful (iterate : ∀ headers : Qpack.Headers, headers.Iteration) : (roomSetup iterate).Lawful where
  urls := ConnectRequest.roomUrls_lawful
  statuses := ConnectResponse.sampleStatuses_lawful
  valid := by
    change validateUrl ConnectRequest.roomUrls ConnectRequest.roomRequest.url = .ok ()
    decide +kernel
  fits := by
    change (ConnectRequest.roomRequest.headers.encode ConnectRequest.roomIteration).length ≤ maxConnectFrameSize
    decide +kernel

/-- A run with this answer, to its end. -/
theorem settled_run (lawful : setup.Lawful) (choice : Answer http) :
    ∃ (events : List (Event backend http)) (s : State backend url http), run (step setup) start events = some s ∧
      EachStep (step setup) Undisturbed start events ∧ Settled setup s ∧ s.answered = some choice := by
  obtain ⟨last, ⟨events, following, ran⟩, good, settled⟩ :=
    (@good_start backend _ _ setup choice).settles lawful
  refine ⟨events, last, ran, ?_, settled, ?_⟩
  · intro front event back state split _
    apply undisturbed_of_proceeds (following event ?_)
    rw [split]
    simp
  · obtain ⟨id, answer, _, answered, _⟩ := settled
    rw [answered, good.chosen answer answered]

/-- A session of the client goes back to a status 200 of the server, and is the
server's session if the server has one: the same stream, the same URL. -/
theorem sessions_agree (lawful : setup.Lawful) {events : List (Event backend http)} {s : State backend url http}
    (ran : run (step setup) start events = some s) :
    (∀ session, s.client = .connected session → ∃ id answer, s.id = some id ∧
      session = .new id setup.request.url ∧ s.answered = some answer ∧ answer.status = http.ok ∧
      (s.server = .accepted session ∨ answer ≠ .ok ∧ (s.server = .stopping ∨ s.server = .rejected))) ∧
    (∀ session, s.server = .accepted session → ∃ id, s.id = some id ∧
      session = .new id setup.request.url ∧ s.answered = some .ok ∧
      ∀ other, s.client = .connected other → other = session) ∧
    ∀ id request, s.server = .request id request → s.id = some id ∧ request = setup.request := by
  have consistent := consistent_run lawful ran
  have server := consistent.server
  have connected : ∀ session, s.client = .connected session →
      (∃ own, s.id = some own ∧ session = .new own setup.request.url) ∧ (s.pipe .response).buf = [] ∧
        ∃ answer, s.answered = some answer ∧ answer.status = http.ok := by
    intro session phase
    have client := consistent.client
    rw [phase] at client
    exact client
  refine ⟨?_, ?_, ?_⟩
  · intro session phase
    obtain ⟨⟨id, opened, same⟩, written, answer, answered, ok⟩ := connected session phase
    refine ⟨id, answer, opened, same, answered, ok, ?_⟩
    -- The server has answered, and all of its answer is written.
    cases other : s.server with
    | accepted accepted =>
        rw [other] at server
        obtain ⟨⟨own, found, equal⟩, _⟩ := server
        cases opened.symm.trans found
        rw [same, ← equal]
        exact .inl rfl
    | stopping =>
        rw [other] at server
        obtain ⟨_, choice, found, refused, _⟩ := server
        cases answered.symm.trans found
        exact .inr ⟨refused, .inl rfl⟩
    | rejected =>
        rw [other] at server
        obtain ⟨_, choice, found, refused, _⟩ := server
        cases answered.symm.trans found
        exact .inr ⟨refused, .inr rfl⟩
    | respond own asked => exact absurd written (consistent.writing .response (by rw [State.writing, other]))
    | respondFailed error =>
        rw [other] at server
        exact absurd written server.2
    | settings =>
        rw [other] at server
        cases answered.symm.trans server.1
    | readRequest own =>
        rw [other] at server
        cases answered.symm.trans server.2.1
    | request own asked =>
        rw [other] at server
        cases answered.symm.trans server.2.2
    | failed error =>
        rw [other] at server
        cases answered.symm.trans server
    | cancelled =>
        rw [other] at server
        cases answered.symm.trans server
  · intro session phase
    rw [phase] at server
    obtain ⟨⟨id, opened, same⟩, ok, _⟩ := server
    refine ⟨id, opened, same, ok, ?_⟩
    intro other client
    obtain ⟨⟨own, found, equal⟩, _⟩ := connected other client
    cases opened.symm.trans found
    rw [same, equal]
  · intro id request phase
    rw [phase] at server
    exact ⟨server.1, server.2.1⟩

theorem sessions_agree_room :
    let setup := roomSetup fun headers => ⟨headers.fields.entries.toList, headers.fields.entries.coe_toList⟩
    ∃ (events : List (Event .quinn ConnectResponse.sampleStatuses))
      (s : State .quinn ConnectRequest.roomUrls ConnectResponse.sampleStatuses) (session : _),
      run (step setup) start events = some s ∧ s.client = .connected session ∧ s.server = .accepted session := by
  intro setup
  obtain ⟨events, s, ran, _, ⟨id, answer, opened, answered, client, _⟩, chosen⟩ :=
    @settled_run .quinn _ _ setup (roomSetup_lawful _) .ok
  cases answered.symm.trans chosen
  have ok : (Answer.ok : Answer ConnectResponse.sampleStatuses).status = ConnectResponse.sampleStatuses.ok := rfl
  rw [if_pos ok] at client
  obtain ⟨_, other, _, _, same, _, accepted | ⟨refused, _⟩⟩ :=
    (sessions_agree (roomSetup_lawful _) ran).1 _ client
  · exact ⟨events, s, _, ran, client, accepted⟩
  · cases chosen.symm.trans same
    exact absurd rfl refused

/-- No run of the handshake is longer than its messages allow, whatever fails on
the way. -/
theorem handshake_terminates (lawful : setup.Lawful) {events : List (Event backend http)}
    {s : State backend url http} (ran : run (step setup) start events = some s) :
    events.length ≤ 2 * ((setup.settingsBytes .client).length + (setup.settingsBytes .server).length +
      setup.requestBytes.length + 73) + 22 := by
  have bounded := run_measure (fun consistent stepped (_ : True) => consistent_step consistent lawful stepped)
    (fun consistent stepped _ => consistent.work_lt lawful stepped) consistent_start (fun _ _ => trivial) ran
  have initial : (start : State backend url http).work setup =
      2 * ((setup.settingsBytes .client).length + (setup.settingsBytes .server).length +
        setup.requestBytes.length + 73) + 22 := by
    simp only [State.work, State.transit, State.local_, start, Pipe.work, Setup.bound, if_true, lossWork,
      Exchange.work, Opening.work, Accepting.work, Client.work, Server.work]
    omega
  omega

theorem handshake_terminates_room :
    let setup := roomSetup fun headers => ⟨headers.fields.entries.toList, headers.fields.entries.coe_toList⟩
    ∃ (events : List (Event .quion ConnectResponse.sampleStatuses))
      (s : State .quion ConnectRequest.roomUrls ConnectResponse.sampleStatuses),
      run (step setup) start events = some s ∧ Settled setup s ∧
        events.length ≤ 2 * ((setup.settingsBytes .client).length + (setup.settingsBytes .server).length +
          setup.requestBytes.length + 73) + 22 := by
  intro setup
  obtain ⟨events, s, ran, _, settled, _⟩ := @settled_run .quion _ _ setup (roomSetup_lawful _) .drop
  exact ⟨events, s, ran, settled, handshake_terminates (roomSetup_lawful _) ran⟩

/-- Where nobody gives up and no connection is lost before a refusal, nobody
fails but a client that was refused, and the handshake has a next step until
both ends have settled on the answer. -/
theorem handshake_settles (lawful : setup.Lawful) {events : List (Event backend http)}
    {s : State backend url http} (ran : run (step setup) start events = some s)
    (undisturbed : EachStep (step setup) Undisturbed start events) :
    (∀ error, s.client = .failed error → ∃ answer, s.answered = some answer ∧ answer.status ≠ http.ok ∧
      error = .connectError (.errorStatus answer.status)) ∧
    (∀ error, s.server ≠ .failed error) ∧ (∀ error, s.server ≠ .respondFailed error) ∧
    (Settled setup s ∨ ∀ choice, Possible setup s choice) := by
  obtain ⟨consistent, course⟩ := consistent_onCourse_run lawful ran undisturbed
  refine ⟨?_, ?_, ?_, ?_⟩
  · intro error failed
    have client := course.client
    rw [failed] at client
    exact client.2.1
  · intro error failed
    have server := course.server
    rw [failed] at server
    exact server
  · intro error failed
    have server := course.server
    rw [failed] at server
    exact server
  · by_cases settled : Settled setup s
    · exact .inl settled
    · exact .inr fun choice => (course.settled_or_possible consistent lawful choice).resolve_left settled

theorem handshake_settles_room :
    let setup := roomSetup fun headers => ⟨headers.fields.entries.toList, headers.fields.entries.coe_toList⟩
    ∃ (events : List (Event .quinn ConnectResponse.sampleStatuses))
      (s : State .quinn ConnectRequest.roomUrls ConnectResponse.sampleStatuses),
      run (step setup) start events = some s ∧ EachStep (step setup) Undisturbed start events ∧
        s.client = .failed (.connectError (.errorStatus ConnectResponse.SampleStatus.forbidden)) ∧
        s.server = .rejected ∧ (Settled setup s ∨ ∀ choice, Possible setup s choice) := by
  intro setup
  obtain ⟨events, s, ran, undisturbed, ⟨id, answer, _, answered, client, server⟩, chosen⟩ :=
    @settled_run .quinn _ _ setup (roomSetup_lawful _) (.close ConnectResponse.SampleStatus.forbidden)
  cases answered.symm.trans chosen
  have refused : (Answer.close ConnectResponse.SampleStatus.forbidden :
      Answer ConnectResponse.sampleStatuses).status ≠ ConnectResponse.sampleStatuses.ok := nofun
  rw [if_neg refused] at client
  exact ⟨events, s, ran, undisturbed, client, server,
    (handshake_settles (roomSetup_lawful _) ran undisturbed).2.2.2⟩

end Webtrans.Session.Handshake
