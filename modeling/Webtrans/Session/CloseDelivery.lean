import Webtrans.Session.CloseReason
import Webtrans.Session.Closing

namespace Webtrans.Session.Closing

open Webtrans.Data Webtrans.Proto

/-! A close command that the peer can still receive, and the way of its code
through the peer and back. -/

variable {backend : Backend} {s t : State backend} {own peer : Party backend} {close : CloseCommand}

/-- The background tasks and the transport go on: nobody calls, and nothing
fails or is lost. -/
def Action.serves : Action backend → Bool
  | .act event => match event with | .takeClose | .readCapsule | .advance => true | _ => false
  | .write _ | .deliver _ | .closes _ => true
  | .deliverEnd | .fail _ _ | .lost _ => false

def Event.Serves : Event backend → Prop
  | .near action | .far action => action.serves = true

def State.swap (s : State backend) : State backend := ⟨s.far, s.near⟩

def Event.swap : Event backend → Event backend
  | .near action => .far action
  | .far action => .near action

theorem step_swap (s : State backend) (event : Event backend) :
    step s.swap event.swap = (step s event).map State.swap := by
  cases event with
  | near action | far action =>
      rw [step, Option.map_map]
      rfl

theorem run_swap (s : State backend) (events : List (Event backend)) :
    Data.run step s.swap (events.map Event.swap) = (Data.run step s events).map State.swap := by
  induction events generalizing s with
  | nil => rfl
  | cons event events ih =>
      rw [List.map_cons, Data.run, Data.run, step_swap]
      cases step s event with
      | none => rfl
      | some next => exact ih next

theorem reaches_swap (reached : Reaches step Event.Serves s t) : Reaches step Event.Serves s.swap t.swap := by
  obtain ⟨events, serves, ran⟩ := reached
  refine ⟨events.map Event.swap, fun event member => ?_, by rw [run_swap, ran]; rfl⟩
  obtain ⟨other, isMember, rfl⟩ := List.mem_map.mp member
  have other_ := serves other isMember
  cases other with
  | near action | far action => exact other_

/-- An invariant of a session that does not speak of what has arrived is one of
both ends. -/
theorem session_invariant {invariant : Session.State backend → Prop} (initial : invariant {})
    (kept : ∀ {s t event}, invariant s → Session.step s event = some t → invariant t)
    (arrives : ∀ {s : Session.State backend} (recv : RecvStream), invariant s → invariant { s with recv })
    {events : List (Event backend)} (ran : Data.run step start events = some s) :
    invariant s.near.session ∧ invariant s.far.session := by
  have both : ∀ {own peer : Party backend} {after}, invariant own.session → invariant peer.session →
      Acts own peer after → invariant after.1.session ∧ invariant after.2.session := by
    intro own peer after mine theirs acts
    cases acts with
    | act _ stepped => exact ⟨kept mine stepped, theirs⟩
    | write _ _ => exact ⟨mine, theirs⟩
    | deliver _ _ | deliverEnd _ _ _ => exact ⟨mine, arrives _ theirs⟩
    | fail _ _ _ => exact ⟨arrives _ mine, theirs⟩
    | @closes code _ reason _ isOpen =>
        have stepped : Session.step peer.session (.lost (.applicationClosed code reason)) = some
            { peer.session with connReason := some (.applicationClosed code reason) } := by rw [Session.step, isOpen]
        exact ⟨mine, kept theirs stepped⟩
    | lost cause isOpen =>
        have stepped : Session.step own.session (.lost (.other cause)) = some
            { own.session with connReason := some (.other cause) } := by rw [Session.step, isOpen]
        exact ⟨kept mine stepped, theirs⟩
  refine @run_invariant _ _ step (fun s => invariant s.near.session ∧ invariant s.far.session) ?_ start s events
    ⟨initial, initial⟩ ran
  intro state event next holds stepped
  cases event with
  | near action =>
      obtain ⟨after, acted, rfl⟩ := Option.map_eq_some_iff.mp stepped
      exact both holds.1 holds.2 (acts_of_actOn acted)
  | far action =>
      obtain ⟨after, acted, rfl⟩ := Option.map_eq_some_iff.mp stepped
      exact (both holds.2 holds.1 (acts_of_actOn acted)).symm

theorem receiving_of_step {s t : Session.State backend} {event : Session.Event backend}
    (stepped : Session.step s event = some t) (receiving : t.task.receiving = true) : s.task.receiving = true := by
  cases passes_of_step stepped with
  | kept _ _ task => rwa [← task]
  | queued _ => exact receiving
  | taken selecting _ => rw [selecting, Task.receiving]
  | written sending _ => rw [sending, Task.receiving]
  | ended _ dropped =>
      rw [dropped] at receiving
      cases receiving
  | _ => cases receiving

/-- While `own` has not stopped sending, its stream fails for the peer only
with the connection, and ends behind the whole of what was written. -/
structure Whole (own peer : Party backend) : Prop where
  intact : own.session.task.receiving = true → peer.session.connReason = none →
    ∀ error, peer.session.recv.ending ≠ .failed error
  whole : own.session.task.receiving = true → peer.session.task = .select →
    peer.session.recv.ending = .finished → peer.session.recv.bytes = own.wire ∧ own.finished = true

theorem whole_start : Whole ({} : Party backend) {} where
  intact _ _ _ failed := by cases failed
  whole _ _ finished := by cases finished

theorem Whole.act_sends {event : Session.Event backend} {session : Session.State backend} (whole : Whole own peer)
    (stepped : Session.step own.session event = some session) : Whole (own.onward event session) peer := by
  refine ⟨fun receiving => whole.intact (receiving_of_step stepped receiving),
    fun receiving selecting finished => ?_⟩
  obtain ⟨bytes, ended⟩ := whole.whole (receiving_of_step stepped receiving) selecting finished
  refine ⟨bytes, ?_⟩
  change (own.finished || _) = true
  rw [ended, Bool.true_or]

theorem Whole.act_reads {event : Session.Event backend} {session : Session.State backend} (whole : Whole own peer)
    (sound : Sound own peer) (may : peer.mayStep event = true)
    (stepped : Session.step peer.session event = some session) : Whole own (peer.onward event session) := by
  have kept : session.recv.ending = peer.session.recv.ending ∧
      (session.task = .select → session.recv.bytes = peer.session.recv.bytes) := by
    by_cases reading : event = .readCapsule
    · subst reading
      rw [Session.step] at stepped
      split at stepped
      next selecting =>
        rcases sound.read selecting stepped with rfl | ⟨_, recv, _, same, rfl⟩
        · exact ⟨rfl, fun _ => rfl⟩
        · exact ⟨same, fun selects => by cases selects⟩
      next => cases stepped
    · rw [(local_keeps stepped (isLocal_of_mayStep may) reading).1]
      exact ⟨rfl, fun _ => rfl⟩
  refine ⟨fun receiving isOpen error failed => ?_, fun receiving selecting finished => ?_⟩
  · refine whole.intact receiving ?_ error (kept.1.symm.trans failed)
    by_contra closed
    exact closed_stays closed stepped isOpen
  · obtain ⟨bytes, ended⟩ := whole.whole receiving (select_of_step stepped selecting) (kept.1.symm.trans finished)
    exact ⟨(kept.2 selecting).trans bytes, ended⟩

theorem Whole.acts {after : Party backend × Party backend} (whole : Whole own peer) (back : Whole peer own)
    (sound : Sound own peer) (returns : Sound peer own) (acts : Acts own peer after) :
    Whole after.1 after.2 ∧ Whole after.2 after.1 := by
  cases acts with
  | act may stepped => exact ⟨whole.act_sends stepped, back.act_reads returns may stepped⟩
  | write _ sending =>
      refine ⟨⟨whole.intact, fun receiving selecting finished => ?_⟩, back.intact, back.whole⟩
      -- Nothing is written behind the end.
      have ended := (whole.whole receiving selecting finished).2
      cases (sound.sending sending).2.symm.trans ended
  | deliver _ waiting =>
      refine ⟨⟨fun _ _ error failed => ?_, fun _ _ finished => ?_⟩, back.intact, back.whole⟩
      · cases waiting.symm.trans failed
      · cases waiting.symm.trans finished
  | deliverEnd ends all waiting =>
      refine ⟨⟨fun _ _ error failed => (by cases failed), fun receiving selecting _ => ⟨?_, ?_⟩⟩,
        back.intact, back.whole⟩
      · have bytes := (sound.arrived selecting).2.2 waiting
        rwa [all, List.take_length] at bytes
      · rwa [Party.ends, receiving, Bool.not_true, Bool.or_false] at ends
  | fail _ _ broken =>
      refine ⟨⟨whole.intact, whole.whole⟩, fun receiving isOpen _ _ => ?_,
        fun _ _ finished => (by cases finished)⟩
      rcases broken with closed | ⟨ends, unfinished⟩
      · exact closed isOpen
      · rw [Party.ends, unfinished, receiving] at ends
        cases ends
  | closes _ _ _ => exact ⟨⟨fun _ isOpen => (by cases isOpen), whole.whole⟩, back.intact, back.whole⟩
  | lost _ _ => exact ⟨⟨whole.intact, whole.whole⟩, fun _ isOpen => (by cases isOpen), back.whole⟩

structure Steady (s : State backend) : Prop where
  sharing : Sharing s.near s.far
  near : Whole s.near s.far
  far : Whole s.far s.near

theorem steady_step {event : Event backend} (steady : Steady s) (stepped : step s event = some t) : Steady t := by
  have sharing := sharing_step steady.sharing stepped
  cases event with
  | near action =>
      obtain ⟨after, acted, rfl⟩ := Option.map_eq_some_iff.mp stepped
      obtain ⟨near, far⟩ := steady.near.acts steady.far steady.sharing.sound steady.sharing.back
        (acts_of_actOn acted)
      exact ⟨sharing, near, far⟩
  | far action =>
      obtain ⟨after, acted, rfl⟩ := Option.map_eq_some_iff.mp stepped
      obtain ⟨far, near⟩ := steady.far.acts steady.near steady.sharing.back steady.sharing.sound
        (acts_of_actOn acted)
      exact ⟨sharing, near, far⟩

theorem run_steady {events : List (Event backend)} (ran : Data.run step start events = some s) : Steady s :=
  run_invariant steady_step ⟨sharing_start, whole_start, whole_start⟩ ran

/-- One end holds a close command that the peer still listens for. -/
structure Underway (own peer : Party backend) (close : CloseCommand) : Prop where
  task : own.session.task = .select ∧ own.session.queue = some close ∨
    ∃ written, own.session.task = .sending close written
  listens : peer.session.task = .select
  ownOpen : own.session.connReason = none
  peerOpen : peer.session.connReason = none

theorem Underway.receiving (underway : Underway own peer close) : own.session.task.receiving = true := by
  rcases underway.task with ⟨selecting, _⟩ | ⟨_, sending⟩
  · rw [selecting, Task.receiving]
  · rw [sending, Task.receiving]

theorem near_serves {action : Action backend} (serves : action.serves = true)
    (acted : actOn s.near s.far action = some (own, peer)) : Reaches step Event.Serves s ⟨own, peer⟩ := by
  refine (Reaches.refl s).tail (.near action) serves ?_
  rw [step, acted, Option.map_some]

theorem far_serves {action : Action backend} (serves : action.serves = true)
    (acted : actOn s.far s.near action = some (own, peer)) : Reaches step Event.Serves s ⟨peer, own⟩ := by
  refine (Reaches.refl s).tail (.far action) serves ?_
  rw [step, acted, Option.map_some]

theorem Underway.takes (underway : Underway s.near s.far close) : ∃ t, Reaches step Event.Serves s t ∧
    Underway t.near t.far close ∧ ∃ written, t.near.session.task = .sending close written := by
  rcases underway.task with ⟨selecting, queued⟩ | sending
  · have acted : actOn s.near s.far (.act .takeClose) = some (s.near.onward .takeClose
        { s.near.session with queue := none, task := .sending close false }, s.far) := by
      simp [actOn, Party.act, Party.mayStep, isLocal, Session.step, selecting, Session.State.takeClose, queued]
    exact ⟨_, near_serves rfl acted,
      ⟨.inr ⟨false, rfl⟩, underway.listens, underway.ownOpen, underway.peerOpen⟩, false, rfl⟩
  · exact ⟨s, Reaches.refl s, underway, sending⟩

theorem Underway.writes {written : Bool} (underway : Underway s.near s.far close) (sound : Sound s.near s.far)
    (sending : s.near.session.task = .sending close written) : ∃ t, Reaches step Event.Serves s t ∧
      Underway t.near t.far close ∧ t.near.wire = closeFrame close := by
  obtain ⟨first, ended⟩ := sound.sending sending
  by_cases whole : s.near.wire = closeFrame close
  · exact ⟨s, Reaches.refl s, underway, whole⟩
  · cases written with
    | true =>
        obtain ⟨other, same, complete⟩ := sound.finished ended
        cases first.symm.trans same
        exact absurd complete whole
    | false =>
        have front := sound.wire_front first
        have shorter : s.near.wire.length < (closeFrame close).length :=
          lt_of_le_of_ne front.length_le fun same => whole (front.eq_of_length same)
        have fits : s.near.wire.length + ((closeFrame close).length - s.near.wire.length) =
            (closeFrame close).length := by
          omega
        have acted : actOn s.near s.far (.write ((closeFrame close).length - s.near.wire.length)) =
            some ({ s.near with wire := closeFrame close }, s.far) := by
          have may : 0 < (closeFrame close).length - s.near.wire.length ∧ s.near.wire.length +
              ((closeFrame close).length - s.near.wire.length) ≤ (closeFrame close).length ∧
              s.near.session.connReason = none := ⟨by omega, fits.le, underway.ownOpen⟩
          simp only [actOn, Party.write, sending]
          rw [if_pos may, fits, List.take_length, Option.map_some]
        refine ⟨_, near_serves rfl acted,
          ⟨.inr ⟨false, sending⟩, underway.listens, underway.ownOpen, underway.peerOpen⟩, ?_⟩
        dsimp only

theorem Underway.delivers (underway : Underway s.near s.far close) (sound : Sound s.near s.far)
    (whole : Whole s.near s.far) (wire : s.near.wire = closeFrame close) : ∃ t, Reaches step Event.Serves s t ∧
      Underway t.near t.far close ∧ t.far.session.recv.bytes = closeFrame close := by
  cases ending : s.far.session.recv.ending with
  | failed error => exact absurd ending (whole.intact underway.receiving underway.peerOpen error)
  | finished =>
      have bytes := (whole.whole underway.receiving underway.listens ending).1
      exact ⟨s, Reaches.refl s, underway, bytes.trans wire⟩
  | waiting =>
      have bytes := (sound.arrived underway.listens).2.2 ending
      have upTo := sound.carried
      by_cases all : s.near.carried = s.near.wire.length
      · rw [all, List.take_length] at bytes
        exact ⟨s, Reaches.refl s, underway, bytes.trans wire⟩
      · have may : 0 < s.near.wire.length - s.near.carried ∧
            s.near.carried + (s.near.wire.length - s.near.carried) ≤ s.near.wire.length ∧
            s.far.session.connReason = none := ⟨by omega, by omega, underway.peerOpen⟩
        have rest : (s.near.wire.drop s.near.carried).take (s.near.wire.length - s.near.carried) =
            s.near.wire.drop s.near.carried := by
          rw [← List.length_drop, List.take_length]
        have acted : actOn s.near s.far (.deliver (s.near.wire.length - s.near.carried)) = some
            ({ s.near with carried := s.near.carried + (s.near.wire.length - s.near.carried) },
              { s.far with session := { s.far.session with recv := { s.far.session.recv with
                chunks := s.far.session.recv.chunks ++ [s.near.wire.drop s.near.carried] } } }) := by
          simp only [actOn, Party.deliver, if_pos may, Party.receive, Session.step, ending, rest, if_true,
            Option.map_some]
        refine ⟨_, near_serves rfl acted,
          ⟨underway.task, underway.listens, underway.ownOpen, underway.peerOpen⟩, ?_⟩
        rw [ByteStream.bytes] at bytes ⊢
        rw [List.flatten_append, List.flatten_singleton, bytes, List.take_append_drop, wire]

theorem Underway.reads (underway : Underway s.near s.far close) (sound : Sound s.near s.far)
    (bytes : s.far.session.recv.bytes = closeFrame close) :
    ∃ t, Reaches step Event.Serves s t ∧ t.near = s.near ∧
      t.far.session.connReason = none ∧ t.far.received = some (close.code, capsuleReason close.reason) ∧
      t.far.session.task = .returned (.ok (some (close.code, capsuleReason close.reason))) := by
  obtain ⟨pending, _⟩ := sound.arrived underway.listens
  obtain ⟨frame, same, _, receives⟩ := closeFrame_record close
  have read := receives s.far.session.recv [] (by rw [bytes, same, List.append_nil])
  have acted : actOn s.far s.near (.act .readCapsule) = some (s.far.onward .readCapsule { s.far.session with
      recv := s.far.session.recv.advance frame.bytes.length, pending := [], exchanged := some close.code
      task := .returned (.ok (some (close.code, capsuleReason close.reason))) }, s.near) := by
    simp [actOn, Party.act, Party.mayStep, isLocal, Session.step, underway.listens, Session.State.readCapsule, pending,
      read, CloseCommand.capsule]
  exact ⟨_, far_serves rfl acted, rfl, underway.peerOpen, rfl, rfl⟩

theorem far_advances {session : Session.State backend} (advanced : s.far.session.advance = some session) :
    Reaches step Event.Serves s ⟨s.near, { s.far with session, first := s.far.first <|> session.queue }⟩ := by
  have acted : actOn s.far s.near (.act .advance) =
      some ({ s.far with session, first := s.far.first <|> session.queue }, s.near) := by
    simp [actOn, Party.act, Party.mayStep, isLocal, Session.step, advanced, Party.onward]
  exact far_serves rfl acted

theorem closes_next {code : UInt32} {reason : String} (reached : Reaches step Event.Serves s t)
    (closing : t.far.session.task = .closing code reason) (isOpen : t.far.session.connReason = none) :
    ∃ last, Reaches step Event.Serves s last ∧ last.near = t.near ∧ last.far.received = t.far.received ∧
      last.far.session.ownClose = some (closeCode code, asBytes reason) ∧
      last.far.session.closeError = t.far.session.closeError := by
  have advanced : t.far.session.advance = some { t.far.session with
      connReason := some .locallyClosed, ownClose := some (closeCode code, asBytes reason)
      task := State.afterResult backend } := by
    simp [Session.State.advance, closing, Session.State.closeConnection_open isOpen]
  exact ⟨_, reached.trans (far_advances advanced), rfl, rfl, rfl, rfl⟩

/-- Behind the capsule the task closes the open connection with the same code. -/
theorem closes_behind {code : UInt32} {reason : String}
    (returned : s.far.session.task = .returned (.ok (some (code, reason))))
    (isOpen : s.far.session.connReason = none) :
    ∃ t, Reaches step Event.Serves s t ∧ t.near = s.near ∧ t.far.received = s.far.received ∧
      t.far.session.ownClose = some (closeCode code, asBytes reason) ∧
      (backend = .quion → t.far.session.closeError = some (.webTransportError (.closed code reason))) := by
  cases backend with
  | quinn =>
      have checked : s.far.session.advance = some { s.far.session with task := .closing code reason } := by
        simp [Session.State.advance, returned, Session.State.checkOpen, isOpen]
      obtain ⟨t, reached, near, received, closed, _⟩ := closes_next (far_advances checked) rfl isOpen
      exact ⟨t, reached, near, received, closed, fun isQuion => by cases isQuion⟩
  | quion =>
      have stored : s.far.session.advance = some { s.far.session with
          closeError := some (.webTransportError (.closed code reason)), task := .recorded code reason } := by
        simp [Session.State.advance, returned]
      have checked : Session.State.advance { s.far.session with
          closeError := some (.webTransportError (.closed code reason)), task := .recorded code reason } =
          some { s.far.session with
            closeError := some (.webTransportError (.closed code reason)), task := .closing code reason } := by
        simp [Session.State.advance, Session.State.checkOpen, isOpen]
      have advances := (far_advances stored).trans (far_advances checked)
      obtain ⟨t, reached, near, received, closed, kept⟩ := closes_next advances rfl isOpen
      exact ⟨t, reached, near, received, closed, fun _ => kept⟩

/-- The peer's close of the connection comes back with its code. -/
theorem tells_back {code : VarInt} {text : List UInt8} (closed : s.far.session.ownClose = some (code, text))
    (isOpen : s.near.session.connReason = none) (reason : backend.Reason) : Reaches step Event.Serves s
      ⟨{ s.near with session :=
          { s.near.session with connReason := some (.applicationClosed code reason) } }, s.far⟩ := by
  have acted : actOn s.far s.near (.closes reason) = some (s.far,
      { s.near with session := { s.near.session with connReason := some (.applicationClosed code reason) } }) := by
    simp only [actOn, Party.closes, closed, Party.receive, Session.step, isOpen, Option.map_some]
  exact far_serves rfl acted

/-- Both ends have come to know of the close. -/
structure Reached (own peer : Party backend) (close : CloseCommand) (reason : backend.Reason) : Prop where
  received : peer.received = some (close.code, capsuleReason close.reason)
  closed : peer.session.ownClose = some (closeCode close.code, asBytes (capsuleReason close.reason))
  told : own.session.closeReason = some (.webTransportError (.closed close.code (backend.reasonText reason)))
  stored : backend = .quion →
    peer.session.closeReason = some (.webTransportError (.closed close.code (capsuleReason close.reason)))

theorem fromConnectionError_closeCode (code : UInt32) (reason : backend.Reason) :
    SessionError.fromConnectionError (.applicationClosed (closeCode code) reason) =
      (.webTransportError (.closed code (backend.reasonText reason)) : SessionError backend) := by
  simp [SessionError.fromConnectionError, closeCode_intoInner, errorFromHttp3_errorToHttp3]

theorem Underway.reaches (underway : Underway s.near s.far close) (steady : Steady s) (reason : backend.Reason) :
    ∃ t, Reaches step Event.Serves s t ∧
      (Unstored t.near.session → Reached t.near t.far close reason) := by
  obtain ⟨taken, reached, underway, written, sending⟩ := underway.takes
  have steady := reached.invariant steady_step steady
  obtain ⟨sent, goes, underway, wire⟩ := underway.writes steady.sharing.sound sending
  have reached := reached.trans goes
  have steady := goes.invariant steady_step steady
  obtain ⟨arrived, goes, underway, bytes⟩ := underway.delivers steady.sharing.sound steady.near wire
  have reached := reached.trans goes
  have steady := goes.invariant steady_step steady
  obtain ⟨read, goes, near, isOpen, received, returned⟩ := underway.reads steady.sharing.sound bytes
  have reached := reached.trans goes
  obtain ⟨closed, goes, same, kept, ownClose, stored⟩ := closes_behind returned isOpen
  have reached := reached.trans goes
  have nearOpen : closed.near.session.connReason = none := by
    rw [same, near]
    exact underway.ownOpen
  refine ⟨_, reached.trans (tells_back ownClose nearOpen reason),
    fun unstored => ⟨kept.trans received, ownClose, ?_, ?_⟩⟩
  · have receiving : closed.near.session.task.receiving = true := by
      rw [same, near]
      exact underway.receiving
    have unset : closed.near.session.closeError = none := unstored (.inl receiving)
    rw [← fromConnectionError_closeCode]
    cases backend with
    | quinn => rfl
    | quion =>
        rw [Session.State.closeReason, unset]
        rfl
  · intro isQuion
    subst isQuion
    rw [Session.State.closeReason, stored rfl]
    rfl

/-- Whatever has happened before, as long as one end holds a close command, the
peer still listens and neither end has lost the connection, the tasks and the
transport alone can let the peer read the command whole and close the connection
with its code, and the code come back. -/
theorem close_reaches {events : List (Event backend)} (ran : Data.run step start events = some s)
    (close : CloseCommand) (reason : backend.Reason) :
    (Underway s.near s.far close → ∃ t, Reaches step Event.Serves s t ∧ Reached t.near t.far close reason) ∧
    (Underway s.far s.near close → ∃ t, Reaches step Event.Serves s t ∧ Reached t.far t.near close reason) := by
  have unstored : ∀ {t}, Reaches step Event.Serves s t → Unstored t.near.session ∧ Unstored t.far.session := by
    intro t reached
    obtain ⟨more, _, went⟩ := reached
    have all : Data.run step start (events ++ more) = some t := by rw [run_append, ran, Option.bind_some, went]
    exact session_invariant (fun _ => rfl) unstored_step (fun _ unset => unset) all
  have steady := run_steady ran
  refine ⟨fun underway => ?_, fun underway => ?_⟩
  · obtain ⟨t, reached, arrives⟩ := underway.reaches steady reason
    exact ⟨t, reached, arrives (unstored reached).1⟩
  · have swapped : Steady s.swap := ⟨steady.sharing.swap, steady.far, steady.near⟩
    have other : Underway s.swap.near s.swap.far close := underway
    obtain ⟨t, reached, arrives⟩ := other.reaches swapped reason
    have back : Reaches step Event.Serves s t.swap := reaches_swap reached
    exact ⟨t.swap, back, arrives (unstored back).2⟩

/-- The close of a session that has got as far as a part of its capsule. -/
def halfway : List (Event .quion) :=
  [.near (.act (.requestClose 7 (asBytes "bye"))), .far (.act .cloneHandle), .near (.act .takeClose), .near (.write 5),
    .near (.deliver 2), .near (.deliver 2)]

theorem close_reaches_halfway : ∃ s : State .quion, Data.run step start halfway = some s ∧
    ∃ t, Reaches step Event.Serves s t ∧ Reached t.near t.far ⟨7, asBytes "bye"⟩ "" := by
  have runs : (Data.run step start halfway).map (fun s => (s.near.session.task, s.far.session.task,
      s.near.session.connReason, s.far.session.connReason)) =
      some (.sending ⟨7, asBytes "bye"⟩ false, .select, none, none) := by decide +kernel
  obtain ⟨s, ran, seen⟩ := Option.map_eq_some_iff.mp runs
  simp only [Prod.mk.injEq] at seen
  obtain ⟨sending, listens, ownOpen, peerOpen⟩ := seen
  exact ⟨s, ran, (close_reaches ran ⟨7, asBytes "bye"⟩ "").1
    ⟨.inr ⟨false, sending⟩, listens, ownOpen, peerOpen⟩⟩

end Webtrans.Session.Closing
