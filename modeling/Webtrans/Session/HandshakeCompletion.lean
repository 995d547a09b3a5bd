import Webtrans.Session.HandshakeAgreement

namespace Webtrans.Session.Handshake

open Webtrans.Data Webtrans.Proto

/-! Every handshake comes to an end. -/

variable {backend : Backend} {url : ClientUrlCrate} {http : StatusCrate} {setup : Setup url http}

/-- What is left to do with a message of this length at most: each byte is
written and delivered, and then its end. -/
def Pipe.work (bound : Nat) (pipe : Pipe IoError) : Nat :=
  (if pipe.sent = none then 2 * bound else 2 * pipe.buf.length + pipe.inFlight.length) +
    if pipe.recv.ending = .waiting then 1 else 0

def Opening.work : Opening → Nat
  | openUni => 2
  | write => 1
  | returned => 0

def Accepting.work : Accepting → Nat
  | acceptUni => 2
  | read => 1
  | returned => 0

def Exchange.work (exchange : Exchange) : Nat :=
  exchange.send.work + exchange.recv.work

def Client.work : Client backend url http → Nat
  | settings => 3
  | writeRequest _ => 2
  | readResponse _ => 1
  | _ => 0

def Server.work : Server backend url http → Nat
  | settings => 5
  | readRequest _ => 4
  | request _ _ => 3
  | respond _ _ => 2
  | stopping => 1
  | _ => 0

/-- A connection is lost once to each party. -/
def lossWork : Option (ConnectionError backend × IoError) → Nat
  | none => 1
  | some _ => 0

def Setup.bound (setup : Setup url http) : Lane → Nat
  | .control party => (setup.settingsBytes party).length
  | .request => setup.requestBytes.length
  | .response => 73

namespace State

/-- What the transport has left to do. -/
def transit (setup : Setup url http) (pipe : Lane → Pipe IoError) : Nat :=
  Pipe.work (setup.bound (.control .client)) (pipe (.control .client)) +
    Pipe.work (setup.bound (.control .server)) (pipe (.control .server)) +
    Pipe.work (setup.bound .request) (pipe .request) + Pipe.work (setup.bound .response) (pipe .response)

/-- What the two parties have left to do, and the losses of the connection
that they have not met. -/
def local_ (s : State backend url http) : Nat :=
  (s.exchange .client).work + (s.exchange .server).work + s.client.work + s.server.work +
    lossWork (s.lost .client) + lossWork (s.lost .server)

def work (setup : Setup url http) (s : State backend url http) : Nat :=
  transit setup s.pipe + s.local_

end State

section Pipes

variable {bound : Nat} {pipe next : Pipe IoError} {count : Nat}

theorem work_begin_ (valid : pipe.Valid) (sent : pipe.sent = none) {message : List UInt8}
    (fits : message.length ≤ bound) : Pipe.work bound (pipe.begin_ message) ≤ Pipe.work bound pipe := by
  obtain ⟨_, _, landed, _⟩ := valid.unsent sent
  simp only [Pipe.work, Pipe.begin_, sent, landed, if_true, List.length_nil]
  simp only [reduceCtorEq, if_false]
  omega

theorem work_write (valid : pipe.Valid) (written : pipe.write count = some next) :
    Pipe.work bound next < Pipe.work bound pipe := by
  obtain ⟨positive, enough, _, rfl⟩ := Pipe.write_cases written
  have sent : pipe.sent ≠ none := by
    intro unsent
    rw [(valid.unsent unsent).2.2.2, List.length_nil] at enough
    omega
  simp only [Pipe.work, if_neg sent, List.length_drop, List.length_append, List.length_take]
  omega

theorem work_deliver (valid : pipe.Valid) (delivered : pipe.deliver count = some next) :
    Pipe.work bound next < Pipe.work bound pipe := by
  obtain ⟨positive, enough, waiting, _, rfl⟩ := Pipe.deliver_cases delivered
  have sent : pipe.sent ≠ none := by
    intro unsent
    rw [(valid.unsent unsent).2.2.1, List.length_nil] at enough
    omega
  simp only [Pipe.work, if_neg sent, List.length_drop, ByteStream.ending_continued, waiting, if_true]
  omega

theorem work_deliverEnd (delivered : pipe.deliverEnd = some next) :
    Pipe.work bound next < Pipe.work bound pipe := by
  obtain ⟨_, _, waiting, _, rfl⟩ := Pipe.deliverEnd_cases delivered
  simp only [Pipe.work, waiting, if_true]
  simp

theorem work_take {ε α : Type} {reader : ByteStream IoError → Read IoError ε α} {value : α}
    {after : ByteStream IoError} (incremental : Incremental reader)
    (read : reader pipe.recv = .done value after) :
    Pipe.work bound (pipe.take after) = Pipe.work bound pipe := by
  obtain ⟨kept, _⟩ := (incremental pipe.recv).done read
  have same : (pipe.take after).recv.ending = pipe.recv.ending := kept
  rw [Pipe.work, Pipe.work, same]
  rfl

theorem work_fail (io : IoError) : Pipe.work bound (pipe.fail io) ≤ Pipe.work bound pipe := by
  rw [Pipe.fail]
  split
  next waiting =>
    simp only [Pipe.work, waiting, if_true]
    simp
  next => exact Nat.le_refl _

end Pipes

/-- A response of any status is a small message. -/
theorem Setup.responseBytes_length_le (lawful : setup.Lawful) (answer : Answer http) :
    (setup.responseBytes answer).length ≤ 73 := by
  have frame : ∀ (headers : Qpack.Headers) (iteration : headers.Iteration),
      (headers.encode iteration).length ≤ 64 → (encodeHeadersFrame headers iteration).length ≤ 73 := by
    intro headers iteration small
    have typ : Frame.headers.encode.length = 1 := by decide
    have length := VarInt.size_le (VarInt.fromU32 (UInt32.ofNat (headers.encode iteration).length))
    simp only [encodeHeadersFrame, List.length_append, VarInt.encode_length, typ]
    omega
  exact frame _ _ (ConnectResponse.payload_length_le lawful.statuses _)

section Step

variable {s next : State backend url http}

theorem transit_le {pipe pipe' : Lane → Pipe IoError}
    (each : ∀ lane, Pipe.work (setup.bound lane) (pipe' lane) ≤ Pipe.work (setup.bound lane) (pipe lane)) :
    State.transit setup pipe' ≤ State.transit setup pipe := by
  have controlClient := each (.control .client)
  have controlServer := each (.control .server)
  have request := each .request
  have response := each .response
  rw [State.transit, State.transit]
  omega

theorem transit_setPipe_le {lane : Lane} {pipe : Pipe IoError}
    (moved : Pipe.work (setup.bound lane) pipe ≤ Pipe.work (setup.bound lane) (s.pipe lane)) :
    State.transit setup (s.setPipe lane pipe).pipe ≤ State.transit setup s.pipe := by
  apply transit_le
  intro other
  rw [State.pipe_setPipe]
  split
  next same =>
    subst same
    exact moved
  next => exact Nat.le_refl _

theorem transit_setPipe_lt {lane : Lane} {pipe : Pipe IoError}
    (moved : Pipe.work (setup.bound lane) pipe < Pipe.work (setup.bound lane) (s.pipe lane)) :
    State.transit setup (s.setPipe lane pipe).pipe < State.transit setup s.pipe := by
  cases lane with
  | control party =>
      cases party with
      | client =>
          simp only [State.transit, State.pipe_setPipe]
          simp
          omega
      | server =>
          simp only [State.transit, State.pipe_setPipe]
          simp
          omega
  | request =>
      simp only [State.transit, State.pipe_setPipe]
      simp
      omega
  | response =>
      simp only [State.transit, State.pipe_setPipe]
      simp
      omega

theorem transit_retire (s : State backend url http) (party : Party) :
    State.transit setup (s.retire party).pipe ≤ State.transit setup s.pipe := by
  apply transit_le
  intro lane
  rw [State.retire]
  dsimp only
  split <;> exact Nat.le_refl _

theorem work_lt_of_local {t : State backend url http}
    (pipes : State.transit setup t.pipe ≤ State.transit setup s.pipe)
    (progress : t.local_ < s.local_) : t.work setup < s.work setup := by
  rw [State.work, State.work]
  omega

theorem work_lt_of_transit {t : State backend url http}
    (pipes : State.transit setup t.pipe < State.transit setup s.pipe)
    (same : t.local_ = s.local_) : t.work setup < s.work setup := by
  rw [State.work, State.work, same]
  omega

theorem local_setExchange_lt {party : Party} {exchange : Exchange}
    (progress : exchange.work < (s.exchange party).work) : (s.setExchange party exchange).local_ < s.local_ := by
  cases party with
  | client =>
      simp only [State.local_, State.exchange_setExchange]
      simp [State.setExchange]
      omega
  | server =>
      simp only [State.local_, State.exchange_setExchange]
      simp [State.setExchange]
      omega

theorem local_client_lt {t : State backend url http} (progress : t.client.work < s.client.work)
    (exchange : t.exchange = s.exchange) (server : t.server = s.server) (lost : t.lost = s.lost) :
    t.local_ < s.local_ := by
  rw [State.local_, State.local_, exchange, server, lost]
  omega

theorem local_server_lt {t : State backend url http} (progress : t.server.work < s.server.work)
    (exchange : t.exchange = s.exchange) (client : t.client = s.client) (lost : t.lost = s.lost) :
    t.local_ < s.local_ := by
  rw [State.local_, State.local_, exchange, client, lost]
  omega

theorem work_leave {party : Party} (active : s.active party = true)
    (error : Option (HandshakeError backend url.toUrlCrate http.toHttpCrate)) :
    (s.leave party error).work setup < s.work setup := by
  cases party with
  | client =>
      have ended : (Client.ended error : Client backend url http).work < s.client.work := by
        cases phase : s.client <;> simp [State.active, phase] at active <;>
          cases error <;> simp [Client.ended, Client.work]
      rw [State.leave, dropGuard_eq]
      exact work_lt_of_local (transit_retire s .client) (local_client_lt ended rfl rfl rfl)
  | server =>
      have ended : (Server.ended error : Server backend url http).work < s.server.work := by
        cases phase : s.server <;> simp [State.active, phase] at active <;>
          cases error <;> simp [Server.ended, Server.work]
      rw [State.leave, dropGuard_eq]
      exact work_lt_of_local (transit_retire s .server) (local_server_lt ended rfl rfl rfl)

/-- Every step brings the handshake nearer to its end. -/
theorem Consistent.work_lt (consistent : Consistent setup s) (lawful : setup.Lawful) {event : Event backend http}
    (stepped : step setup s event = some next) : next.work setup < s.work setup := by
  cases moves_of_step stepped with
  | fails fails => exact work_leave fails.active _
  | openedUni starting unopened =>
      have unsent := (consistent.control _).trans (if_pos unopened)
      refine work_lt_of_local (transit_setPipe_le (work_begin_ (consistent.valid _) unsent (Nat.le_refl _))) ?_
      apply local_setExchange_lt
      simp [Exchange.work, Opening.work, unopened]
  | acceptedUni starting unaccepted =>
      refine work_lt_of_local (Nat.le_refl _) (local_setExchange_lt ?_)
      simp [Exchange.work, Accepting.work, unaccepted]
  | readSettings starting reading read =>
      refine work_lt_of_local (transit_setPipe_le (work_take Settings.read_incremental read).le) ?_
      apply local_setExchange_lt
      simp [Exchange.work, Accepting.work, reading]
  | openedBi starting =>
      have phase := client_of_starting starting
      have client := consistent.client
      rw [phase] at client
      have unsent : (s.pipe .request).sent = none := by rw [consistent.request, client.1]; rfl
      refine work_lt_of_local (transit_setPipe_le (work_begin_ (consistent.valid _) unsent (Nat.le_refl _))) ?_
      refine local_client_lt ?_ rfl rfl rfl
      simp [phase, Client.work]
  | acceptedBi starting =>
      have phase := server_of_starting starting
      refine work_lt_of_local (Nat.le_refl _) (local_server_lt ?_ rfl rfl rfl)
      simp [phase, Server.work]
  | readRequest phase read =>
      refine work_lt_of_local
        (transit_setPipe_le (work_take (ConnectRequest.read_incremental _ _ _) read).le)
        (local_server_lt ?_ rfl rfl rfl)
      simp [phase, Server.work]
  | answered choice phase =>
      have server := consistent.server
      rw [phase] at server
      have unsent : (s.pipe .response).sent = none := by rw [consistent.response, server.2.2]; rfl
      have fits := Setup.responseBytes_length_le lawful choice
      refine work_lt_of_local (transit_setPipe_le (work_begin_ (consistent.valid _) unsent fits))
        (local_server_lt ?_ rfl rfl rfl)
      simp [phase, Server.work]
  | readResponse phase read =>
      refine work_lt_of_local
        (transit_setPipe_le (work_take (ConnectResponse.read_incremental _ _ _) read).le)
        (local_client_lt ?_ rfl rfl rfl)
      simp [phase, Client.work]
  | rejected phase =>
      refine work_lt_of_local (transit_retire s .server) (local_server_lt ?_ rfl rfl rfl)
      simp [phase, Server.work]
  | wrote writing written =>
      exact work_lt_of_transit (transit_setPipe_lt (work_write (consistent.valid _) written)) rfl
  | wroteSettings writing written =>
      simp only [State.writing, Bool.and_eq_true, decide_eq_true_eq] at writing
      refine work_lt_of_local (transit_setPipe_lt (work_write (consistent.valid _) written)).le ?_
      apply local_setExchange_lt
      simp [Exchange.work, Opening.work, writing.2]
  | wroteRequest phase written =>
      refine work_lt_of_local (transit_setPipe_lt (work_write (consistent.valid _) written)).le
        (local_client_lt ?_ rfl rfl rfl)
      simp [phase, Client.work]
  | accepted phase ok written =>
      refine work_lt_of_local (transit_setPipe_lt (work_write (consistent.valid _) written)).le
        (local_server_lt ?_ rfl rfl rfl)
      simp [phase, Server.work]
  | @refused id request count pipe phase refusal written =>
      have wrote : Pipe.work (setup.bound .response) pipe < Pipe.work (setup.bound .response) (s.pipe .response) :=
        work_write (consistent.valid _) written
      have finished : Pipe.work (setup.bound .response) pipe.finish <
          Pipe.work (setup.bound .response) (s.pipe .response) := wrote
      refine work_lt_of_local (transit_setPipe_lt finished).le (local_server_lt ?_ rfl rfl rfl)
      simp [phase, Server.work]
  | respondFailed phase =>
      refine work_lt_of_local (transit_retire s .server) (local_server_lt ?_ rfl rfl rfl)
      simp [phase, Server.work, State.respondFailed]
  | delivered delivered =>
      exact work_lt_of_transit (transit_setPipe_lt (work_deliver (consistent.valid _) delivered)) rfl
  | deliveredEnd delivered => exact work_lt_of_transit (transit_setPipe_lt (work_deliverEnd delivered)) rfl
  | @lost party error io whole =>
      refine work_lt_of_local ?_ ?_
      · apply transit_le
        intro lane
        dsimp only
        split
        · exact Nat.le_refl _
        · exact work_fail io
      · cases party with
        | client => simp [State.local_, whole, lossWork]
        | server => simp [State.local_, whole, lossWork]
  | cancelled active => exact work_leave active none

end Step

end Webtrans.Session.Handshake
