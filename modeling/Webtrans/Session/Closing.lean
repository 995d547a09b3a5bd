import Webtrans.Session.Closed
import Webtrans.Session.FirstClose

namespace Webtrans.Session.Closing

open Webtrans.Data Webtrans.Proto

/-! The two ends of a session that is closed: what the handles and the
background task of each do, and what the transport carries between them, the
capsule on the CONNECT stream and the close of the connection. -/

variable {backend : Backend}

/-- The frame in which a close command is sent. -/
def closeFrame (close : CloseCommand) : List UInt8 :=
  match writeCapsuleFrame close.capsule with
  | .ok frame => frame
  | .error _ => []

/-- The frame is a record that its reader accepts. -/
theorem closeFrame_record (close : CloseCommand) : ∃ frame : Tlv, closeFrame close = frame.bytes ∧
    frame.payload.length ≤ maxCapsuleFrameSize ∧
    Data.Receives (fun recv => readCapsuleFrame recv []) frame.bytes (close.capsule, []) := by
  obtain ⟨frame, written, typ, payload, small⟩ := writeCapsuleFrame_close close
  rw [Tlv.bytes_length] at small
  refine ⟨frame, ?_, by omega, ?_⟩
  · rw [closeFrame, written]
  · intro recv rest arrived
    have canonical : close.capsule.Canonical := trivial
    exact readCapsuleFrame_written canonical (closePayload_fits close) typ payload (by omega) arrived

theorem closeFrame_ne_nil (close : CloseCommand) : closeFrame close ≠ [] := by
  obtain ⟨frame, same, _⟩ := closeFrame_record close
  intro empty
  have positive := frame.header_length_pos
  have length := congrArg List.length (same.symm.trans empty)
  rw [Tlv.bytes_length, List.length_nil] at length
  omega

/-- The reader of a frame that is cut short fails with the end of the stream,
or with its error. -/
theorem readFrame_front {frame : Tlv} (small : frame.payload.length ≤ maxCapsuleFrameSize) {recv : RecvStream}
    (front : recv.bytes <+: frame.bytes) {error : CapsuleError} (failed : readFrame recv = .failed error) :
    error = .unexpectedEnd ∨ ∃ io, error = .io io ∧ (io = .earlyEof ∨ recv.ending = .failed io) := by
  obtain ⟨more, split⟩ := front
  have receives : ∀ {encoded : List UInt8} {x : VarInt}, VarInt.decode.Reads encoded x →
      Data.Receives (VarInt.read IoError.earlyEof) encoded x :=
    fun reads stream rest arrived => varInt_read_reads arrived reads
  have typSplit : recv.bytes ++ more = frame.typBytes ++ (frame.lengthBytes ++ frame.payload) := by
    rw [split, Tlv.bytes, Tlv.header, List.append_assoc]
  rw [readFrame] at failed
  cases typRead : VarInt.read IoError.earlyEof recv with
  | pending | panicked =>
      rw [typRead] at failed
      cases failed
  | failed _ =>
      rw [typRead, Read.bind_failed] at failed
      cases failed
      exact .inl rfl
  | done typ afterTyp =>
      obtain ⟨behindTyp, arrived, remains, rfl, rfl⟩ :=
        (receives frame.typ_reads).of_done (VarInt.read_incremental _) typSplit typRead
      rw [typRead, Read.bind_done] at failed
      have lengthSplit : (recv.advance frame.typBytes.length).bytes ++ more = frame.lengthBytes ++ frame.payload := by
        rw [ByteStream.bytes_advance, arrived, List.drop_left, remains]
      cases lengthRead : VarInt.read IoError.earlyEof (recv.advance frame.typBytes.length) with
      | pending | panicked =>
          rw [lengthRead] at failed
          cases failed
      | failed _ =>
          rw [lengthRead, Read.bind_failed] at failed
          cases failed
          exact .inl rfl
      | done length afterLength =>
          obtain ⟨_, _, _, rfl, rfl⟩ :=
            (receives frame.length_reads).of_done (VarInt.read_incremental _) lengthSplit lengthRead
          have fits : ¬ frame.length.intoInner > maxCapsuleFrameSize := by
            rw [frame.length_eq]
            omega
          rw [lengthRead, Read.bind_done, if_neg fits, ByteStream.readExact_eq] at failed
          right
          split at failed
          · cases failed
          · simp only [ByteStream.ending_advance] at failed
            cases ending : recv.ending with
            | waiting =>
                rw [ending] at failed
                cases failed
            | finished =>
                rw [ending] at failed
                cases failed
                exact ⟨_, rfl, .inl rfl⟩
            | failed io =>
                rw [ending] at failed
                cases failed
                exact ⟨_, rfl, .inr rfl⟩

/-- What the reader makes of the front of a peer's close frame: nothing yet, a
clean end, or the capsule. -/
theorem readCapsuleFrame_front {close : CloseCommand} {recv : RecvStream} (front : recv.bytes <+: closeFrame close)
    (graceful : ∀ error, recv.ending = .failed error → isGracefulClose (.io error) = true) :
    readCapsuleFrame recv [] = .pending ∨
    (∃ error, readCapsuleFrame recv [] = .failed error ∧ isGracefulClose error = true) ∨
    ∃ after, recv.bytes = closeFrame close ∧
      readCapsuleFrame recv [] =
        .done (.closeWebTransportSession close.code (capsuleReason close.reason), []) after := by
  obtain ⟨frame, same, small, receives⟩ := closeFrame_record close
  rw [same] at front ⊢
  have decides := readCapsuleFrame_decides recv []
  cases read : readCapsuleFrame recv [] with
  | pending => exact .inl rfl
  | panicked => exact absurd read decides.safe
  | done value after =>
      right
      right
      obtain ⟨more, split⟩ := front
      have whole : recv.bytes ++ more = frame.bytes ++ [] := by rw [split, List.append_nil]
      obtain ⟨behind, arrived, remains, rfl, rfl⟩ :=
        receives.of_done (fun recv => readCapsuleFrame_decides recv []) whole read
      rw [(List.append_eq_nil_iff.mp remains).1, List.append_nil] at arrived
      exact ⟨_, arrived, rfl⟩
  | failed error =>
      right
      left
      have incomplete : recv.bytes ≠ frame.bytes := by
        intro complete
        have whole := receives recv [] (by rw [complete, List.append_nil])
        cases read.symm.trans whole
      refine ⟨error, rfl, ?_⟩
      have nothing : decodeBufferedCapsule [] = .ok none := rfl
      rw [readCapsuleFrame_eq, nothing] at read
      dsimp only at read
      cases frameRead : readFrame recv with
      | pending | panicked =>
          rw [frameRead] at read
          cases read
      | done value after =>
          -- A frame that is read is whole.
          obtain ⟨more, split⟩ := front
          have readsFrame : Data.Receives readFrame frame.bytes (frame.typ, frame.payload) :=
            fun stream rest arrived => readFrame_bytes arrived small
          have whole : recv.bytes ++ more = frame.bytes ++ [] := by rw [split, List.append_nil]
          obtain ⟨behind, arrived, remains, _⟩ := readsFrame.of_done readFrame_incremental whole frameRead
          rw [(List.append_eq_nil_iff.mp remains).1, List.append_nil] at arrived
          exact absurd arrived incomplete
      | failed other =>
          rw [frameRead, Read.bind_failed] at read
          cases read
          rcases readFrame_front small front frameRead with rfl | ⟨io, rfl, rfl | failed⟩
          · rfl
          · rfl
          · exact graceful io failed

/-! ## The two ends -/

structure Party (backend : Backend) where
  session : Session.State backend := {}
  /-- What the transport has taken of the frame of the close command. -/
  wire : List UInt8 := []
  /-- `send.finish()` -/
  finished : Bool := false
  /-- How much has arrived at the peer. -/
  carried : Nat := 0
  /-- The codes and reasons of all calls of `close`. -/
  asked : List (UInt32 × List UInt8) := []
  /-- The first close command that was queued. -/
  first : Option CloseCommand := none
  /-- The code and reason that the reader returned. -/
  received : Option (UInt32 × String) := none
deriving DecidableEq

structure State (backend : Backend) where
  near : Party backend := {}
  far : Party backend := {}
deriving DecidableEq

/-- What happens at one end, or between it and its peer. -/
inductive Action (backend : Backend) where
  /-- A handle or the background task goes on. -/
  | act (event : Session.Event backend)
  /-- The transport takes bytes of the frame. -/
  | write (count : Nat)
  | deliver (count : Nat)
  | deliverEnd
  /-- Reads fail from here on, with or without the bytes that have arrived. -/
  | fail (error : IoError) (keeps : Bool)
  /-- The peer learns that this end has closed the connection. -/
  | closes (reason : backend.Reason)
  | lost (cause : String)

inductive Event (backend : Backend) where
  | near (action : Action backend)
  | far (action : Action backend)

/-- The events of a session that its environment has no part in. -/
def isLocal : Session.Event backend → Bool
  | .lost _ | .deliver _ | .finish | .reset _ => false
  | _ => true

/-- The code and reason of a task whose reader has just returned. -/
def readerResult : Task → Option (UInt32 × String)
  | .returned (.ok result) => result
  | _ => none

namespace Party

/-- What the end has of its own step. -/
def onward (own : Party backend) (event : Session.Event backend) (session : Session.State backend) : Party backend :=
  { own with
    session
    asked := match event with | .requestClose code reason => own.asked ++ [(code, reason)] | _ => own.asked
    first := own.first <|> session.queue
    finished := own.finished || match event with | .capsuleWritten => true | _ => false
    received := match event with | .readCapsule => readerResult session.task | _ => own.received }

/-- `write_all` is done with all of the frame. -/
def mayStep (own : Party backend) : Session.Event backend → Bool
  | .capsuleWritten =>
      match own.session.task with
      | .sending close _ => decide (own.wire = closeFrame close)
      | _ => false
  | event => isLocal event

def act (own : Party backend) (event : Session.Event backend) : Option (Party backend) :=
  if own.mayStep event = true then (Session.step own.session event).map (own.onward event) else none

def write (own : Party backend) (count : Nat) : Option (Party backend) :=
  match own.session.task with
  | .sending close false =>
      if 0 < count ∧ own.wire.length + count ≤ (closeFrame close).length ∧ own.session.connReason = none then
        some { own with wire := (closeFrame close).take (own.wire.length + count) }
      else none
  | _ => none

/-- The CONNECT stream is finished, at the latest when the task drops it. -/
def ends (own : Party backend) : Bool :=
  own.finished || !own.session.task.receiving

def receive (peer : Party backend) (event : Session.Event backend) : Option (Party backend) :=
  (Session.step peer.session event).map fun session => { peer with session }

def deliver (own peer : Party backend) (count : Nat) : Option (Party backend × Party backend) :=
  if 0 < count ∧ own.carried + count ≤ own.wire.length ∧ peer.session.connReason = none then
    (peer.receive (.deliver ((own.wire.drop own.carried).take count))).map fun peer =>
      ({ own with carried := own.carried + count }, peer)
  else none

def deliverEnd (own peer : Party backend) : Option (Party backend) :=
  if own.ends = true ∧ own.carried = own.wire.length then peer.receive .finish else none

/-- Reads fail on a lost connection, and on a stream that the peer has dropped
before its end.  The errors have kinds such as `NotConnected`. -/
def fail (own peer : Party backend) (error : IoError) (keeps : Bool) : Option (Party backend) :=
  if isGracefulClose (.io error) = true ∧ own.session.recv.ending = .waiting ∧
      (own.session.connReason ≠ none ∨ peer.ends = true ∧ peer.finished = false) then
    some { own with session := { own.session with
      recv := ⟨if keeps = true then own.session.recv.chunks else [], .failed error⟩ } }
  else none

def closes (own peer : Party backend) (reason : backend.Reason) : Option (Party backend) :=
  match own.session.ownClose with
  | some (code, _) => peer.receive (.lost (.applicationClosed code reason))
  | none => none

end Party

/-- One action of `own`. -/
def actOn (own peer : Party backend) : Action backend → Option (Party backend × Party backend)
  | .act event => (own.act event).map fun own => (own, peer)
  | .write count => (own.write count).map fun own => (own, peer)
  | .deliver count => own.deliver peer count
  | .deliverEnd => (own.deliverEnd peer).map fun peer => (own, peer)
  | .fail error keeps => (own.fail peer error keeps).map fun own => (own, peer)
  | .closes reason => (own.closes peer reason).map fun peer => (own, peer)
  | .lost cause => (own.receive (.lost (.other cause))).map fun own => (own, peer)

def step (s : State backend) : Event backend → Option (State backend)
  | .near action => (actOn s.near s.far action).map fun parties => ⟨parties.1, parties.2⟩
  | .far action => (actOn s.far s.near action).map fun parties => ⟨parties.2, parties.1⟩

def start : State backend := {}

variable {s t : Session.State backend} {event : Session.Event backend} {own peer : Party backend}

/-- What an action can do, with what it depends on. -/
inductive Acts (own peer : Party backend) : Party backend × Party backend → Prop where
  | act {event : Session.Event backend} {session : Session.State backend} (may : own.mayStep event = true)
      (stepped : Session.step own.session event = some session) : Acts own peer (own.onward event session, peer)
  | write {close : CloseCommand} (count : Nat) (sending : own.session.task = .sending close false) :
      Acts own peer ({ own with wire := (closeFrame close).take (own.wire.length + count) }, peer)
  | deliver {count : Nat} (fits : own.carried + count ≤ own.wire.length)
      (waiting : peer.session.recv.ending = .waiting) :
      Acts own peer ({ own with carried := own.carried + count },
        { peer with session := { peer.session with recv := { peer.session.recv with
          chunks := peer.session.recv.chunks ++ [(own.wire.drop own.carried).take count] } } })
  | deliverEnd (ends : own.ends = true) (all : own.carried = own.wire.length)
      (waiting : peer.session.recv.ending = .waiting) :
      Acts own peer (own, { peer with session := { peer.session with
        recv := { peer.session.recv with ending := .finished } } })
  | fail {error : IoError} (keeps : Bool) (graceful : isGracefulClose (.io error) = true)
      (broken : own.session.connReason ≠ none ∨ peer.ends = true ∧ peer.finished = false) :
      Acts own peer ({ own with session := { own.session with
        recv := ⟨if keeps = true then own.session.recv.chunks else [], .failed error⟩ } }, peer)
  | closes {code : VarInt} {text : List UInt8} (reason : backend.Reason)
      (closed : own.session.ownClose = some (code, text)) (isOpen : peer.session.connReason = none) :
      Acts own peer (own, { peer with session :=
        { peer.session with connReason := some (.applicationClosed code reason) } })
  | lost (cause : String) (isOpen : own.session.connReason = none) :
      Acts own peer ({ own with session := { own.session with connReason := some (.other cause) } }, peer)

theorem receive_lost {error : ConnectionError backend} {after : Party backend}
    (lost : own.receive (.lost error) = some after) :
    own.session.connReason = none ∧
      after = { own with session := { own.session with connReason := some error } } := by
  obtain ⟨session, stepped, rfl⟩ := Option.map_eq_some_iff.mp lost
  rw [Session.step] at stepped
  split at stepped <;> cases stepped
  next isOpen => exact ⟨isOpen, rfl⟩

theorem acts_of_actOn {action : Action backend} {after : Party backend × Party backend}
    (acted : actOn own peer action = some after) : Acts own peer after := by
  cases action with
  | act event =>
      obtain ⟨own', acts, rfl⟩ := Option.map_eq_some_iff.mp acted
      rw [Party.act] at acts
      split at acts
      next may =>
        obtain ⟨session, stepped, rfl⟩ := Option.map_eq_some_iff.mp acts
        exact .act may stepped
      next => cases acts
  | write count =>
      obtain ⟨own', written, rfl⟩ := Option.map_eq_some_iff.mp acted
      rw [Party.write] at written
      split at written
      next sending =>
        split at written <;> cases written
        exact .write count sending
      next => cases written
  | deliver count =>
      change own.deliver peer count = some after at acted
      rw [Party.deliver] at acted
      split at acted
      next may =>
        obtain ⟨peer', received, rfl⟩ := Option.map_eq_some_iff.mp acted
        obtain ⟨session, stepped, rfl⟩ := Option.map_eq_some_iff.mp received
        rw [Session.step] at stepped
        split at stepped <;> cases stepped
        next waiting => exact .deliver may.2.1 waiting
      next => cases acted
  | deliverEnd =>
      obtain ⟨peer', ended, rfl⟩ := Option.map_eq_some_iff.mp acted
      rw [Party.deliverEnd] at ended
      split at ended
      next may =>
        obtain ⟨session, stepped, rfl⟩ := Option.map_eq_some_iff.mp ended
        rw [Session.step] at stepped
        split at stepped <;> cases stepped
        next waiting => exact .deliverEnd may.1 may.2 waiting
      next => cases ended
  | fail error keeps =>
      obtain ⟨own', failed, rfl⟩ := Option.map_eq_some_iff.mp acted
      rw [Party.fail] at failed
      split at failed <;> cases failed
      next may => exact .fail keeps may.1 may.2.2
  | closes reason =>
      obtain ⟨peer', closed, rfl⟩ := Option.map_eq_some_iff.mp acted
      rw [Party.closes] at closed
      split at closed
      next isClosed =>
        obtain ⟨isOpen, rfl⟩ := receive_lost closed
        exact .closes reason isClosed isOpen
      next => cases closed
  | lost cause =>
      obtain ⟨own', lost, rfl⟩ := Option.map_eq_some_iff.mp acted
      obtain ⟨isOpen, rfl⟩ := receive_lost lost
      exact .lost cause isOpen

theorem isLocal_of_mayStep (may : own.mayStep event = true) : isLocal event = true := by
  cases event with
  | capsuleWritten => rfl
  | _ => exact may

theorem recv_closeConnection (s : Session.State backend) (code : UInt32) (reason : List UInt8) :
    (s.closeConnection code reason).recv = s.recv ∧ (s.closeConnection code reason).pending = s.pending := by
  rw [Session.State.closeConnection]
  split <;> exact ⟨rfl, rfl⟩

theorem afterResult_ne (result : RunClosed) : State.afterResult backend ≠ .returned result := by
  cases backend <;> simp [State.afterResult]

theorem advance_keeps (advanced : s.advance = some t) :
    t.recv = s.recv ∧ t.pending = s.pending ∧ ∀ result, t.task ≠ .returned result := by
  cases moves_of_advance advanced with
  | quiet _ _ _ _ quiet => cases quiet
  | stored _ _ => exact ⟨rfl, rfl, fun result => by simp⟩
  | checked _ =>
      refine ⟨rfl, rfl, fun result => ?_⟩
      rw [Session.State.checkOpen]
      split
      · simp
      · exact afterResult_ne result
  | graceful _ => exact ⟨rfl, rfl, afterResult_ne⟩
  | closing _ =>
      obtain ⟨recv, pending⟩ := recv_closeConnection s _ _
      exact ⟨recv, pending, afterResult_ne⟩
  | handled _ =>
      refine ⟨rfl, rfl, fun result => ?_⟩
      cases s.connReason <;> simp
  | closingEnded _ =>
      obtain ⟨recv, pending⟩ := recv_closeConnection s 0 (asBytes "CONNECT stream ended")
      exact ⟨recv, pending, fun result => by simp⟩
  | settled _ => exact ⟨rfl, rfl, fun result => by simp⟩

/-- Only the reader touches what has arrived, and only it fails. -/
theorem local_keeps (stepped : Session.step s event = some t) (isOwn : isLocal event = true)
    (other : event ≠ .readCapsule) :
    t.recv = s.recv ∧ t.pending = s.pending ∧
      ∀ error, t.task = .returned (.error error) → s.task = t.task := by
  cases event with
  | lost _ | deliver _ | finish | reset _ => cases isOwn
  | readCapsule => exact absurd rfl other
  | advance =>
      obtain ⟨recv, pending, never⟩ := advance_keeps stepped
      exact ⟨recv, pending, fun error failed => absurd failed (never _)⟩
  | fallback caller =>
      rw [Session.step] at stepped
      split at stepped <;> cases stepped
      obtain ⟨recv, pending⟩ :=
        recv_closeConnection ({ s with closers := s.closers.eraseIdx caller } : Session.State backend) _ _
      exact ⟨recv, pending, fun error _ => by simp⟩
  | requestClose code reason =>
      rw [Session.step] at stepped
      split at stepped <;> cases stepped
      rw [Session.State.requestClose]
      split
      · split <;> exact ⟨rfl, rfl, fun _ _ => rfl⟩
      · exact ⟨rfl, rfl, fun _ _ => rfl⟩
  | takeClose =>
      rw [Session.step] at stepped
      split at stepped
      next =>
        rw [Session.State.takeClose] at stepped
        split at stepped
        next => cases stepped; exact ⟨rfl, rfl, fun _ failed => by cases failed⟩
        next =>
          split at stepped <;> cases stepped
          exact ⟨rfl, rfl, fun _ failed => by cases failed⟩
      next => cases stepped
  | capsuleWritten =>
      rw [Session.step] at stepped
      split at stepped
      next =>
        split at stepped <;> cases stepped
        exact ⟨rfl, rfl, fun _ failed => by cases failed⟩
      next => cases stepped
  | closeDone =>
      rw [Session.step] at stepped
      split at stepped <;> cases stepped
      exact ⟨rfl, rfl, fun _ failed => by cases failed⟩
  | observe =>
      rw [Session.step] at stepped
      split at stepped
      next => cases stepped
      next => split at stepped <;> cases stepped <;> exact ⟨rfl, rfl, fun _ _ => rfl⟩
  | cloneHandle | dropHandle =>
      rw [Session.step] at stepped
      split at stepped <;> cases stepped
      exact ⟨rfl, rfl, fun _ _ => rfl⟩

/-! ## What holds between the two ends -/

/-- What the reader of `peer` meets is what `own` has sent. -/
structure Sound (own peer : Party backend) : Prop where
  idle : own.session.task = .select → own.first = own.session.queue ∧ own.wire = [] ∧ own.finished = false
  sending : ∀ {close written}, own.session.task = .sending close written →
    own.first = some close ∧ own.finished = written
  wire : own.wire ≠ [] → ∃ close, own.first = some close ∧ own.wire <+: closeFrame close
  finished : own.finished = true → ∃ close, own.first = some close ∧ own.wire = closeFrame close
  carried : own.carried ≤ own.wire.length
  arrived : peer.session.task = .select → peer.session.pending = [] ∧ peer.session.recv.bytes <+: own.wire ∧
    (peer.session.recv.ending = .waiting → peer.session.recv.bytes = own.wire.take own.carried)
  graceful : ∀ {error}, peer.session.recv.ending = .failed error → isGracefulClose (.io error) = true
  received : ∀ {result}, peer.received = some result →
    ∃ close, own.first = some close ∧ result = (close.code, capsuleReason close.reason)
  sane : ∀ error, peer.session.task ≠ .returned (.error error)

theorem sound_start : Sound ({} : Party backend) {} where
  idle _ := ⟨rfl, rfl, rfl⟩
  sending selecting := by cases selecting
  wire some_ := absurd rfl some_
  finished ended := by cases ended
  carried := Nat.le_refl 0
  arrived _ := ⟨rfl, List.prefix_refl _, fun _ => rfl⟩
  graceful failed := by cases failed
  received known := by cases known
  sane _ failed := by cases failed

/-- What arrives at a reader is the front of a close frame. -/
theorem Sound.front (sound : Sound own peer) (selecting : peer.session.task = .select) :
    ∃ close, peer.session.recv.bytes <+: closeFrame close ∧
      (peer.session.recv.bytes = closeFrame close → own.first = some close) := by
  obtain ⟨_, front, _⟩ := sound.arrived selecting
  by_cases nothing : own.wire = []
  · rw [nothing, List.prefix_nil] at front
    refine ⟨⟨0, []⟩, by rw [front]; exact List.nil_prefix, fun whole => ?_⟩
    rw [front] at whole
    exact absurd whole.symm (closeFrame_ne_nil _)
  · obtain ⟨close, first, written⟩ := sound.wire nothing
    exact ⟨close, front.trans written, fun _ => first⟩

/-- A reader returns the capsule of the peer's first close command, or takes
the stream for ended. -/
theorem Sound.read (sound : Sound own peer) (selecting : peer.session.task = .select)
    (read : peer.session.readCapsule = some t) :
    t = { peer.session with pending := [], task := .returned (.ok none) } ∨
    ∃ close recv, own.first = some close ∧
      recv.ending = peer.session.recv.ending ∧ t = { peer.session with
        recv, pending := [], exchanged := some close.code
        task := .returned (.ok (some (close.code, capsuleReason close.reason))) } := by
  obtain ⟨close, front, first⟩ := sound.front selecting
  obtain ⟨empty, _⟩ := sound.arrived selecting
  rw [Session.State.readCapsule, empty] at read
  rcases readCapsuleFrame_front front (fun _ => sound.graceful) with pending | ⟨error, failed, graceful⟩ |
    ⟨after, whole, completed⟩
  · rw [pending] at read
    cases read
  · rw [failed] at read
    simp only [graceful, if_true, Option.some.injEq] at read
    exact .inl read.symm
  · rw [completed] at read
    cases read
    have ending := ((readCapsuleFrame_decides peer.session.recv []).done completed).1
    exact .inr ⟨close, after, first whole, ending, rfl⟩

theorem select_of_step (stepped : Session.step s event = some t) (selecting : t.task = .select) :
    s.task = .select := by
  cases passes_of_step stepped with
  | kept _ _ task => exact task.symm.trans selecting
  | queued _ => exact selecting
  | ended _ dropped =>
      rw [selecting] at dropped
      cases dropped
  | _ => cases selecting

theorem first_onward {close : CloseCommand} (first : own.first = some close) (event : Session.Event backend)
    (session : Session.State backend) : (own.onward event session).first = some close := by
  change (own.first <|> session.queue) = _
  rw [first]
  rfl

/-- Until the task takes a command, the first one queued is still queued. -/
theorem Sound.idle_onward (sound : Sound own peer) (stepped : Session.step own.session event = some t)
    (selecting : t.task = .select) : (own.onward event t).first = t.queue := by
  obtain ⟨first, _⟩ := sound.idle (select_of_step stepped selecting)
  change (own.first <|> t.queue) = t.queue
  cases passes_of_step stepped with
  | kept _ _ _ queue =>
      rw [first, queue]
      cases own.session.queue <;> rfl
  | queued queues =>
      obtain ⟨_, _, _, _, empty, _⟩ := queues
      rw [first, empty]
      rfl
  | ended _ dropped =>
      rw [selecting] at dropped
      cases dropped
  | _ => cases selecting

theorem Sound.sending_onward {close : CloseCommand} {written : Bool} (sound : Sound own peer)
    (stepped : Session.step own.session event = some t) (other : event ≠ .capsuleWritten)
    (sending : t.task = .sending close written) :
    (own.onward event t).first = some close ∧ own.finished = written := by
  cases passes_of_step stepped with
  | kept _ _ task =>
      obtain ⟨first, same⟩ := sound.sending (task.symm.trans sending)
      exact ⟨first_onward first event t, same⟩
  | queued _ =>
      obtain ⟨first, same⟩ := sound.sending sending
      exact ⟨first_onward first event _, same⟩
  | taken selecting held =>
      cases sending
      obtain ⟨first, _, unwritten⟩ := sound.idle selecting
      exact ⟨first_onward (first.trans held) _ _, unwritten⟩
  | written _ _ => exact absurd rfl other
  | ended _ dropped =>
      rw [sending] at dropped
      cases dropped
  | _ => cases sending

/-- The sender's part of the invariant is kept by its own steps. -/
theorem Sound.act_sends (sound : Sound own peer) (may : own.mayStep event = true)
    (stepped : Session.step own.session event = some t) : Sound (own.onward event t) peer := by
  have wire : (own.onward event t).wire ≠ [] →
      ∃ close, (own.onward event t).first = some close ∧ own.wire <+: closeFrame close := by
    intro some_
    obtain ⟨close, first, front⟩ := sound.wire some_
    exact ⟨close, first_onward first event t, front⟩
  have received : ∀ {result}, peer.received = some result →
      ∃ close, (own.onward event t).first = some close ∧ result = (close.code, capsuleReason close.reason) := by
    intro result known
    obtain ⟨close, first, same⟩ := sound.received known
    exact ⟨close, first_onward first event t, same⟩
  by_cases writing : event = .capsuleWritten
  · subst writing
    rw [Session.step] at stepped
    split at stepped
    next close sending =>
      obtain ⟨first, _⟩ := sound.sending sending
      have whole : own.wire = closeFrame close := by simpa [Party.mayStep, sending] using may
      have first_ := first_onward first (.capsuleWritten) t
      split at stepped <;> cases stepped
      refine ⟨fun selecting => (by cases selecting), fun still => ?_, wire, fun _ => ⟨close, first_, whole⟩,
        sound.carried, sound.arrived, sound.graceful, received, sound.sane⟩
      cases still
      exact ⟨first_, by simp [Party.onward]⟩
    next => cases stepped
  · have unwritten : (own.onward event t).finished = own.finished := by
      cases event with
      | capsuleWritten => exact absurd rfl writing
      | _ => simp [Party.onward]
    have finished : (own.onward event t).finished = true →
        ∃ close, (own.onward event t).first = some close ∧ own.wire = closeFrame close := by
      intro ended
      obtain ⟨close, first, whole⟩ := sound.finished (unwritten.symm.trans ended)
      exact ⟨close, first_onward first event t, whole⟩
    refine ⟨fun selecting => ?_, fun sending => ?_, wire, finished, sound.carried, sound.arrived,
      sound.graceful, received, sound.sane⟩
    · obtain ⟨_, empty, unfinished⟩ := sound.idle (select_of_step stepped selecting)
      exact ⟨sound.idle_onward stepped selecting, empty, unwritten.trans unfinished⟩
    · rw [unwritten]
      exact sound.sending_onward stepped writing sending

/-- The reader's part is kept by its own steps. -/
theorem Sound.act_reads (sound : Sound own peer) (may : peer.mayStep event = true)
    (stepped : Session.step peer.session event = some t) : Sound own (peer.onward event t) := by
  by_cases reading : event = .readCapsule
  · subst reading
    rw [Session.step] at stepped
    split at stepped
    next selecting =>
      rcases sound.read selecting stepped with rfl | ⟨close, recv, first, ending, rfl⟩
      · exact ⟨sound.idle, sound.sending, sound.wire, sound.finished, sound.carried,
          fun selects => (by cases selects), sound.graceful, fun known => (by cases known),
          fun error failed => (by cases failed)⟩
      · refine ⟨sound.idle, sound.sending, sound.wire, sound.finished, sound.carried,
          fun selects => (by cases selects), fun failed => sound.graceful (ending.symm.trans failed),
          fun known => ?_, fun error failed => (by cases failed)⟩
        cases known
        exact ⟨close, first, rfl⟩
    next => cases stepped
  · obtain ⟨recv, pending, failed_⟩ := local_keeps stepped (isLocal_of_mayStep may) reading
    have received : (peer.onward event t).received = peer.received := by
      cases event with
      | readCapsule => exact absurd rfl reading
      | _ => rfl
    refine ⟨sound.idle, sound.sending, sound.wire, sound.finished, sound.carried, fun selecting => ?_, ?_, ?_, ?_⟩
    · change t.pending = [] ∧ t.recv.bytes <+: own.wire ∧
        (t.recv.ending = .waiting → t.recv.bytes = own.wire.take own.carried)
      rw [recv, pending]
      exact sound.arrived (select_of_step stepped selecting)
    · change ∀ {error}, t.recv.ending = .failed error → _
      rw [recv]
      exact sound.graceful
    · rw [received]
      exact sound.received
    · intro error failed
      exact sound.sane error ((failed_ error failed).trans failed)

theorem Sound.wire_front {close : CloseCommand} (sound : Sound own peer) (first : own.first = some close) :
    own.wire <+: closeFrame close := by
  by_cases nothing : own.wire = []
  · rw [nothing]
    exact List.nil_prefix
  · obtain ⟨other, same, front⟩ := sound.wire nothing
    cases first.symm.trans same
    exact front

theorem Sound.write {close : CloseCommand} (sound : Sound own peer)
    (sending : own.session.task = .sending close false) (count : Nat) :
    Sound { own with wire := (closeFrame close).take (own.wire.length + count) } peer := by
  obtain ⟨first, unwritten⟩ := sound.sending sending
  have longer : own.wire <+: (closeFrame close).take (own.wire.length + count) := by
    have shorter : (closeFrame close).take own.wire.length <+: (closeFrame close).take (own.wire.length + count) :=
      List.take_prefix_take_left (Nat.le_add_right _ _)
    rwa [← List.prefix_iff_eq_take.mp (sound.wire_front first)] at shorter
  have more := longer.length_le
  refine ⟨fun selecting => ?_, sound.sending, fun _ => ⟨close, first, List.take_prefix _ _⟩, fun ended => ?_,
    Nat.le_trans sound.carried more, fun selecting => ?_, sound.graceful, sound.received, sound.sane⟩
  · cases sending.symm.trans selecting
  · cases unwritten.symm.trans ended
  · obtain ⟨pending, arrived, exact_⟩ := sound.arrived selecting
    refine ⟨pending, arrived.trans longer, fun waiting => ?_⟩
    obtain ⟨rest, split⟩ := longer
    change _ = ((closeFrame close).take (own.wire.length + count)).take own.carried
    rw [exact_ waiting, ← split, List.take_append_of_le_length sound.carried]

theorem Sound.deliver {count : Nat} (sound : Sound own peer) (fits : own.carried + count ≤ own.wire.length)
    (waiting : peer.session.recv.ending = .waiting) : Sound { own with carried := own.carried + count }
      { peer with session := { peer.session with recv := { peer.session.recv with
        chunks := peer.session.recv.chunks ++ [(own.wire.drop own.carried).take count] } } } := by
  refine ⟨sound.idle, sound.sending, sound.wire, sound.finished, fits, fun selecting => ?_, sound.graceful,
    sound.received, sound.sane⟩
  obtain ⟨pending, _, exact_⟩ := sound.arrived selecting
  have bytes : (ByteStream.mk (peer.session.recv.chunks ++ [(own.wire.drop own.carried).take count])
      peer.session.recv.ending).bytes = own.wire.take (own.carried + count) := by
    have before := exact_ waiting
    rw [ByteStream.bytes] at before ⊢
    rw [List.flatten_append, List.flatten_singleton, before, List.take_add]
  exact ⟨pending, bytes ▸ List.take_prefix _ _, fun _ => bytes⟩

theorem Sound.deliverEnd (sound : Sound own peer) : Sound own { peer with session := { peer.session with
    recv := { peer.session.recv with ending := .finished } } } := by
  refine ⟨sound.idle, sound.sending, sound.wire, sound.finished, sound.carried, fun selecting => ?_,
    fun failed => (by cases failed), sound.received, sound.sane⟩
  obtain ⟨pending, arrived, _⟩ := sound.arrived selecting
  exact ⟨pending, arrived, fun waiting => by cases waiting⟩

theorem Sound.fail {error : IoError} (sound : Sound own peer) (keeps : Bool)
    (graceful : isGracefulClose (.io error) = true) : Sound own { peer with session := { peer.session with
      recv := ⟨if keeps = true then peer.session.recv.chunks else [], .failed error⟩ } } := by
  refine ⟨sound.idle, sound.sending, sound.wire, sound.finished, sound.carried, fun selecting => ?_, fun ends => ?_,
    sound.received, sound.sane⟩
  · obtain ⟨pending, arrived, _⟩ := sound.arrived selecting
    refine ⟨pending, ?_, fun waiting => by cases waiting⟩
    cases keeps with
    | true => exact arrived
    | false => exact List.nil_prefix
  · cases ends
    exact graceful

theorem Sound.acts {after : Party backend × Party backend} (sound : Sound own peer)
    (back : Sound peer own) (acts : Acts own peer after) : Sound after.1 after.2 ∧ Sound after.2 after.1 := by
  cases acts with
  | act may stepped => exact ⟨sound.act_sends may stepped, back.act_reads may stepped⟩
  | write count sending =>
      exact ⟨sound.write sending count, back.idle, back.sending, back.wire, back.finished, back.carried,
        back.arrived, back.graceful, back.received, back.sane⟩
  | deliver fits waiting =>
      exact ⟨sound.deliver fits waiting, back.idle, back.sending, back.wire, back.finished, back.carried,
        back.arrived, back.graceful, back.received, back.sane⟩
  | deliverEnd _ _ _ =>
      exact ⟨sound.deliverEnd, back.idle, back.sending, back.wire, back.finished, back.carried, back.arrived,
        back.graceful, back.received, back.sane⟩
  | fail keeps graceful _ =>
      exact ⟨⟨sound.idle, sound.sending, sound.wire, sound.finished, sound.carried, sound.arrived, sound.graceful,
        sound.received, sound.sane⟩, back.fail keeps graceful⟩
  | closes _ _ _ | lost _ _ =>
      exact ⟨⟨sound.idle, sound.sending, sound.wire, sound.finished, sound.carried, sound.arrived, sound.graceful,
        sound.received, sound.sane⟩, back.idle, back.sending, back.wire, back.finished, back.carried, back.arrived,
        back.graceful, back.received, back.sane⟩

/-! ## Where the codes come from -/

variable {known : UInt32 → Prop}

/-- The code with which an error tells of a close is a known one. -/
def Named (known : UInt32 → Prop) (error : SessionError backend) : Prop :=
  ∀ code reason, error.sessionError = some (code, reason) → known code

def Known (known : UInt32 → Prop) : Task → Prop
  | .sending close _ => known close.code
  | .returned result => ∃ close, result = .ok close ∧ ∀ pair, close = some pair → known pair.1
  | .recorded code _ | .closing code _ => known code
  | _ => True

/-- Every code that a session has to do with is a known one. -/
structure Codes (known : UInt32 → Prop) (s : Session.State backend) : Prop where
  closers : ∀ call ∈ s.closers, known call.1
  task : Known known s.task
  own : ∀ {code reason}, s.ownClose = some (code, reason) → ∃ given, code = closeCode given ∧ known given
  reason : ∀ {code : VarInt} {reason : backend.Reason}, s.connReason = some (.applicationClosed code reason) →
    ∃ given, code = closeCode given ∧ known given
  stored : ∀ {error}, s.closeError = some error → Named known error
  reported : ∀ error ∈ s.reported, Named known error

theorem Known.mono {wider : UInt32 → Prop} (more : ∀ code, known code → wider code) {task : Task}
    (holds : Known known task) : Known wider task := by
  cases task with
  | returned result =>
      obtain ⟨close, same, pairs⟩ := holds
      exact ⟨close, same, fun pair some_ => more _ (pairs pair some_)⟩
  | sending _ _ | recorded _ _ | closing _ _ => exact more _ holds
  | _ => trivial

theorem Codes.mono {wider : UInt32 → Prop} (more : ∀ code, known code → wider code) (codes : Codes known s) :
    Codes wider s where
  closers call member := more _ (codes.closers call member)
  task := codes.task.mono more
  own closed := by
    obtain ⟨given, same, holds⟩ := codes.own closed
    exact ⟨given, same, more _ holds⟩
  reason closed := by
    obtain ⟨given, same, holds⟩ := codes.reason closed
    exact ⟨given, same, more _ holds⟩
  stored kept code reason told := more _ (codes.stored kept code reason told)
  reported error member code reason told := more _ (codes.reported error member code reason told)

theorem codes_start : Codes known ({} : Session.State backend) where
  closers call member := by cases member
  task := trivial
  own closed := by cases closed
  reason closed := by cases closed
  stored kept := by cases kept
  reported error member := by cases member

/-- A close of the connection by a known code tells this code. -/
theorem named_fromConnectionError {error : ConnectionError backend}
    (reasons : ∀ code reason, error = .applicationClosed code reason →
      ∃ given, code = closeCode given ∧ known given) :
    Named known (SessionError.fromConnectionError error) := by
  intro code reason told
  obtain ⟨errorCode, text, same, mapped, _⟩ :=
    (SessionError.sessionError_fromConnectionError error code reason).mp told
  obtain ⟨given, rfl, holds⟩ := reasons errorCode text same
  rw [closeCode_intoInner, errorFromHttp3_errorToHttp3] at mapped
  cases mapped
  exact holds

theorem Codes.connection (codes : Codes known s) {error : SessionError backend}
    (told : s.connReason.map SessionError.fromConnectionError = some error) : Named known error := by
  obtain ⟨cause, closed, rfl⟩ := Option.map_eq_some_iff.mp told
  refine named_fromConnectionError fun code reason same => ?_
  subst same
  exact codes.reason closed

theorem Codes.closeReason (codes : Codes known s) {error : SessionError backend}
    (seen : s.closeReason = some error) : Named known error := by
  cases backend with
  | quinn => exact codes.connection seen
  | quion =>
      rw [Session.State.closeReason] at seen
      cases stored : s.closeError with
      | none =>
          rw [stored] at seen
          exact codes.connection seen
      | some other =>
          rw [stored] at seen
          cases seen
          exact codes.stored stored

theorem Codes.closeConnection (codes : Codes known s) {code : UInt32} (holds : known code) (reason : List UInt8) :
    Codes known (s.closeConnection code reason) := by
  cases isOpen : s.connReason with
  | some error =>
      rw [Session.State.closeConnection_closed isOpen]
      refine ⟨codes.closers, codes.task, codes.own, fun closed => ?_, codes.stored, codes.reported⟩
      cases backend with
      | quinn => cases closed
      | quion => exact codes.reason (isOpen.trans closed)
  | none =>
      rw [Session.State.closeConnection_open isOpen]
      refine ⟨codes.closers, codes.task, fun closed => ?_, fun closed => (by cases closed), codes.stored,
        codes.reported⟩
      cases closed
      exact ⟨code, rfl, holds⟩

theorem queue_of_advance (advanced : s.advance = some t) : t.queue = s.queue := by
  cases moves_of_advance advanced with
  | quiet _ _ _ _ quiet => cases quiet
  | closing _ | closingEnded _ => exact channel_closeConnection.1
  | _ => rfl

theorem queue_of_readCapsule (read : s.readCapsule = some t) : t.queue = s.queue := by
  rw [Session.State.readCapsule] at read
  split at read
  case h_3 => split at read <;> cases read <;> rfl
  all_goals cases read <;> rfl

/-- Only calls of `close` put anything into the channel. -/
theorem queue_of_step (stepped : Session.step s event = some t) :
    t.queue = s.queue ∨ t.queue = none ∨
      ∃ code reason, event = .requestClose code reason ∧ t.queue = some ⟨code, queuedReason reason⟩ := by
  cases event with
  | requestClose code reason =>
      rw [Session.step] at stepped
      split at stepped <;> cases stepped
      rw [Session.State.requestClose]
      split
      · split
        · exact .inr (.inr ⟨code, reason, rfl, rfl⟩)
        · exact .inl rfl
      · exact .inl rfl
  | fallback caller =>
      rw [Session.step] at stepped
      split at stepped <;> cases stepped
      exact .inl channel_closeConnection.1
  | readCapsule =>
      rw [Session.step] at stepped
      split at stepped
      · exact .inl (queue_of_readCapsule stepped)
      · cases stepped
  | takeClose =>
      rw [Session.step] at stepped
      split at stepped
      · rw [Session.State.takeClose] at stepped
        split at stepped
        · cases stepped
          exact .inr (.inl rfl)
        · split at stepped <;> cases stepped
          exact .inl rfl
      · cases stepped
  | capsuleWritten =>
      rw [Session.step] at stepped
      split at stepped
      · split at stepped <;> cases stepped
        exact .inl rfl
      · cases stepped
  | advance => exact .inl (queue_of_advance stepped)
  | observe =>
      rw [Session.step] at stepped
      split at stepped
      · cases stepped
      · split at stepped <;> cases stepped <;> exact .inl rfl
  | closeDone | cloneHandle | dropHandle | lost error | deliver chunk | finish | reset error =>
      rw [Session.step] at stepped
      split at stepped <;> cases stepped
      exact .inl rfl

theorem known_afterResult : Known known (State.afterResult backend) := by
  cases backend <;> trivial

theorem Codes.checkOpen (codes : Codes known s) {code : UInt32} {reason : String} (holds : known code) :
    Codes known (s.checkOpen code reason) := by
  refine ⟨codes.closers, ?_, codes.own, codes.reason, codes.stored, codes.reported⟩
  rw [Session.State.checkOpen]
  split
  · exact holds
  · exact known_afterResult

/-- No code appears in a session but those that it is given. -/
theorem codes_step (codes : Codes known s) (zero : known 0) (stepped : Session.step s event = some t)
    (queued : ∀ close, s.queue = some close → known close.code)
    (asks : ∀ code reason, event = .requestClose code reason → known code)
    (reads : event = .readCapsule → Known known t.task)
    (tells : ∀ code reason, event = .lost (.applicationClosed code reason) →
      ∃ given, code = closeCode given ∧ known given) : Codes known t := by
  have task := codes.task
  cases moves_of_step stepped with
  | quiet _ _ _ _ _ => exact ⟨codes.closers, codes.task, codes.own, codes.reason, codes.stored, codes.reported⟩
  | refused _ =>
      refine ⟨fun call member => ?_, codes.task, codes.own, codes.reason, codes.stored, codes.reported⟩
      rcases List.mem_append.mp member with earlier | last
      · exact codes.closers call earlier
      · rw [List.mem_singleton.mp last]
        exact asks _ _ rfl
  | fallback call =>
      have holds := codes.closers _ (List.mem_of_getElem? call)
      refine Codes.closeConnection ?_ holds _
      exact ⟨fun other member => codes.closers other (List.mem_of_mem_eraseIdx member), codes.task, codes.own,
        codes.reason, codes.stored, codes.reported⟩
  | observed seen =>
      refine ⟨codes.closers, codes.task, codes.own, codes.reason, codes.stored, fun error member => ?_⟩
      rcases List.mem_append.mp member with earlier | last
      · exact codes.reported error earlier
      · rw [List.mem_singleton.mp last]
        exact codes.closeReason seen
  | lost _ =>
      refine ⟨codes.closers, codes.task, codes.own, fun closed => ?_, codes.stored, codes.reported⟩
      cases closed
      exact tells _ _ rfl
  | received _ _ | readerEnded _ _ =>
      exact ⟨codes.closers, reads rfl, codes.own, codes.reason, codes.stored, codes.reported⟩
  | taken selecting =>
      refine ⟨codes.closers, ?_, codes.own, codes.reason, codes.stored, codes.reported⟩
      rw [Session.step, if_pos selecting, Session.State.takeClose] at stepped
      cases held : s.queue with
      | none => simp [held] at stepped
      | some close =>
          have same := congrArg (Option.map Session.State.task) stepped
          simp only [held, Option.map_some, Option.some.injEq, Task.sending.injEq] at same
          exact same.1 ▸ queued close held
  | handlesGone _ =>
      refine ⟨codes.closers, ⟨_, rfl, fun pair same => ?_⟩, codes.own, codes.reason, codes.stored,
        codes.reported⟩
      cases same
      exact zero
  | written sending =>
      rw [sending] at task
      exact ⟨codes.closers, task, codes.own, codes.reason, codes.stored, codes.reported⟩
  | closeDone sending =>
      rw [sending] at task
      refine ⟨codes.closers, ⟨_, rfl, fun pair same => ?_⟩, codes.own, codes.reason, codes.stored,
        codes.reported⟩
      cases same
      exact task
  | stored _ returned =>
      rw [returned] at task
      obtain ⟨_, same, pairs⟩ := task
      cases same
      refine ⟨codes.closers, pairs _ rfl, codes.own, codes.reason, fun kept code reason told => ?_, codes.reported⟩
      cases kept
      cases told
      exact pairs _ rfl
  | checked checks =>
      rcases checks with ⟨_, returned⟩ | recorded | ⟨error, failed, _⟩
      · rw [returned] at task
        obtain ⟨_, same, pairs⟩ := task
        cases same
        exact codes.checkOpen (pairs _ rfl)
      · rw [recorded] at task
        exact codes.checkOpen task
      · rw [failed] at task
        obtain ⟨_, same, _⟩ := task
        cases same
  | graceful _ => exact ⟨codes.closers, known_afterResult, codes.own, codes.reason, codes.stored, codes.reported⟩
  | @closing code reason closing =>
      rw [closing] at task
      have closed := codes.closeConnection task (asBytes reason)
      exact ⟨closed.closers, known_afterResult, closed.own, closed.reason, closed.stored, closed.reported⟩
  | handled _ =>
      refine ⟨codes.closers, ?_, codes.own, codes.reason, codes.stored, codes.reported⟩
      cases s.connReason <;> exact trivial
  | closingEnded _ =>
      have closed := codes.closeConnection zero (asBytes "CONNECT stream ended")
      exact ⟨closed.closers, trivial, closed.own, closed.reason, closed.stored, closed.reported⟩
  | settled _ =>
      refine ⟨codes.closers, trivial, codes.own, codes.reason, fun {error} kept => ?_, codes.reported⟩
      change (s.closeError <|> s.connReason.map SessionError.fromConnectionError) = some error at kept
      cases stored : s.closeError with
      | none =>
          rw [stored] at kept
          exact codes.connection kept
      | some other =>
          rw [stored] at kept
          cases kept
          exact codes.stored stored

/-- The commands of an end are calls of its own `close`. -/
structure Owned (own : Party backend) : Prop where
  queue : ∀ {close}, own.session.queue = some close →
    ∃ reason, (close.code, reason) ∈ own.asked ∧ close.reason = queuedReason reason
  first : ∀ {close}, own.first = some close →
    ∃ reason, (close.code, reason) ∈ own.asked ∧ close.reason = queuedReason reason

theorem asked_onward {call : UInt32 × List UInt8} (member : call ∈ own.asked) (event : Session.Event backend)
    (session : Session.State backend) : call ∈ (own.onward event session).asked := by
  cases event with
  | requestClose code reason => exact List.mem_append_left _ member
  | _ => exact member

theorem Owned.onward (owned : Owned own) (stepped : Session.step own.session event = some t) :
    Owned (own.onward event t) := by
  have queue : ∀ {close}, t.queue = some close →
      ∃ reason, (close.code, reason) ∈ (own.onward event t).asked ∧ close.reason = queuedReason reason := by
    intro close held
    rcases queue_of_step stepped with same | empty | ⟨code, reason, rfl, queued⟩
    · obtain ⟨reason, member, cut⟩ := owned.queue (same.symm.trans held)
      exact ⟨reason, asked_onward member event t, cut⟩
    · rw [empty] at held
      cases held
    · rw [queued] at held
      cases held
      exact ⟨reason, List.mem_append_right _ (List.mem_singleton_self _), rfl⟩
  refine ⟨queue, fun {close} first => ?_⟩
  change (own.first <|> t.queue) = some close at first
  cases earlier : own.first with
  | none =>
      rw [earlier] at first
      exact queue first
  | some other =>
      rw [earlier] at first
      cases first
      obtain ⟨reason, member, cut⟩ := owned.first earlier
      exact ⟨reason, asked_onward member event t, cut⟩

theorem Owned.acts {after : Party backend × Party backend} (owned : Owned own) (theirs : Owned peer)
    (acts : Acts own peer after) : Owned after.1 ∧ Owned after.2 := by
  cases acts with
  | act _ stepped => exact ⟨owned.onward stepped, theirs⟩
  | _ => exact ⟨⟨owned.queue, owned.first⟩, theirs.queue, theirs.first⟩

/-- With the codes of both ends known, no step brings in another. -/
theorem Codes.acts {after : Party backend × Party backend} (mine : Codes known own.session)
    (theirs : Codes known peer.session) (back : Sound peer own) (owned : Owned own) (others : Owned peer)
    (zero : known 0) (asked : ∀ call ∈ after.1.asked, known call.1)
    (also : ∀ call ∈ after.2.asked, known call.1)
    (acts : Acts own peer after) : Codes known after.1.session ∧ Codes known after.2.session := by
  cases acts with
  | @act event session may stepped =>
      refine ⟨codes_step mine zero stepped (fun close held => ?_) (fun code reason same => ?_) (fun same => ?_)
        fun code reason same => ?_, theirs⟩
      · obtain ⟨reason, member, _⟩ := owned.queue held
        exact asked _ (asked_onward member event session)
      · subst same
        exact asked (code, reason) (List.mem_append_right _ (List.mem_singleton_self _))
      · subst same
        rw [Session.step] at stepped
        split at stepped
        next selecting =>
          rcases back.read selecting stepped with rfl | ⟨close, recv, first, _, rfl⟩
          · exact ⟨none, rfl, fun pair same => by cases same⟩
          · refine ⟨_, rfl, fun pair same => ?_⟩
            cases same
            obtain ⟨reason, member, _⟩ := others.first first
            exact also _ member
        next => cases stepped
      · subst same
        cases may
  | closes _ closed _ =>
      refine ⟨mine, theirs.closers, theirs.task, theirs.own, fun tells => ?_, theirs.stored, theirs.reported⟩
      cases tells
      exact mine.own closed
  | lost _ _ =>
      exact ⟨⟨mine.closers, mine.task, mine.own, fun tells => (by cases tells), mine.stored, mine.reported⟩,
        theirs⟩
  | _ =>
      exact ⟨⟨mine.closers, mine.task, mine.own, mine.reason, mine.stored, mine.reported⟩, theirs.closers,
        theirs.task, theirs.own, theirs.reason, theirs.stored, theirs.reported⟩

theorem asked_acts {after : Party backend × Party backend} (acts : Acts own peer after) :
    (∀ call ∈ own.asked, call ∈ after.1.asked) ∧ after.2.asked = peer.asked := by
  cases acts with
  | act _ _ => exact ⟨fun call member => asked_onward member _ _, rfl⟩
  | _ => exact ⟨fun call member => member, rfl⟩

/-- A code that one of the two applications closes with, or the code of a close
without a call. -/
def Given (own peer : Party backend) (code : UInt32) : Prop :=
  code = 0 ∨ ∃ call ∈ own.asked ++ peer.asked, call.1 = code

structure Sharing (own peer : Party backend) : Prop where
  sound : Sound own peer
  back : Sound peer own
  owned : Owned own
  others : Owned peer
  mine : Codes (Given own peer) own.session
  theirs : Codes (Given own peer) peer.session

theorem sharing_start : Sharing ({} : Party backend) {} where
  sound := sound_start
  back := sound_start
  owned := ⟨fun held => (by cases held), fun first => (by cases first)⟩
  others := ⟨fun held => (by cases held), fun first => (by cases first)⟩
  mine := codes_start
  theirs := codes_start

theorem Given.mono {own' peer' : Party backend} {code : UInt32} (given : Given own peer code)
    (more : ∀ call ∈ own.asked ++ peer.asked, call ∈ own'.asked ++ peer'.asked) : Given own' peer' code := by
  rcases given with zero | ⟨call, member, same⟩
  · exact .inl zero
  · exact .inr ⟨call, more call member, same⟩

theorem Given.swap {code : UInt32} (given : Given own peer code) : Given peer own code :=
  given.mono fun _ member => List.mem_append.mpr (List.mem_append.mp member).symm

theorem Sharing.swap (sharing : Sharing own peer) : Sharing peer own where
  sound := sharing.back
  back := sharing.sound
  owned := sharing.others
  others := sharing.owned
  mine := sharing.theirs.mono fun _ given => given.swap
  theirs := sharing.mine.mono fun _ given => given.swap

theorem Sharing.acts {after : Party backend × Party backend} (sharing : Sharing own peer)
    (acts : Acts own peer after) :
    Sharing after.1 after.2 := by
  obtain ⟨mineAsked, theirAsked⟩ := asked_acts acts
  have more : ∀ code, Given own peer code → Given after.1 after.2 code := by
    intro code given
    refine given.mono fun call member => List.mem_append.mpr ?_
    rw [theirAsked]
    exact (List.mem_append.mp member).imp_left (mineAsked call)
  obtain ⟨sound, back⟩ := sharing.sound.acts sharing.back acts
  obtain ⟨owned, others⟩ := sharing.owned.acts sharing.others acts
  obtain ⟨mine, theirs⟩ := (sharing.mine.mono more).acts (sharing.theirs.mono more) sharing.back sharing.owned
    sharing.others (.inl rfl) (fun call member => .inr ⟨call, List.mem_append_left _ member, rfl⟩)
    (fun call member => .inr ⟨call, List.mem_append_right _ member, rfl⟩) acts
  exact ⟨sound, back, owned, others, mine, theirs⟩

theorem sharing_step {s t : State backend} {event : Event backend} (sharing : Sharing s.near s.far)
    (stepped : step s event = some t) : Sharing t.near t.far := by
  cases event with
  | near action =>
      obtain ⟨after, acted, rfl⟩ := Option.map_eq_some_iff.mp stepped
      exact sharing.acts (acts_of_actOn acted)
  | far action =>
      obtain ⟨after, acted, rfl⟩ := Option.map_eq_some_iff.mp stepped
      exact (sharing.swap.acts (acts_of_actOn acted)).swap

theorem run_sharing {events : List (Event backend)} {s : State backend} (ran : Data.run step start events = some s) :
    Sharing s.near s.far :=
  @run_invariant _ _ step (fun s => Sharing s.near s.far) sharing_step start s events sharing_start ran

/-- Whatever the two ends and the transport do, no reader fails with a capsule
error, what a reader returns is a call of `close` at its peer, cut to the
length of a reason, and every code that an end reports or closes the connection
with was given by one of the two applications, or is 0. -/
theorem capsules_agree {events : List (Event backend)} {s : State backend}
    (ran : Data.run step start events = some s) {own peer : Party backend}
    (ends : s = ⟨own, peer⟩ ∨ s = ⟨peer, own⟩) :
    (∀ error, own.session.task ≠ .returned (.error error)) ∧
    (∀ code text, own.received = some (code, text) → ∃ reason, (code, reason) ∈ peer.asked ∧
      peer.first = some ⟨code, queuedReason reason⟩ ∧ text = capsuleReason (queuedReason reason)) ∧
    (∀ error ∈ own.session.reported, Named (Given own peer) error) ∧
    ∀ code reason, own.session.ownClose = some (code, reason) →
      ∃ given, code = closeCode given ∧ Given own peer given := by
  have sharing : Sharing own peer := by
    rcases ends with rfl | rfl
    · exact run_sharing ran
    · exact (run_sharing ran).swap
  refine ⟨sharing.back.sane, fun code text received => ?_, sharing.mine.reported, fun _ _ => sharing.mine.own⟩
  obtain ⟨⟨code', cut⟩, first, same⟩ := sharing.back.received received
  cases same
  obtain ⟨reason, member, rfl⟩ := sharing.others.first first
  exact ⟨reason, member, first, rfl⟩

/-- One end closes the session, and the other the connection. -/
def goodbye : List (Event .quinn) :=
  [.near (.act (.requestClose 7 (asBytes "bye"))), .near (.act .takeClose), .near (.write 5), .near (.write 7),
    .near (.act .capsuleWritten), .far (.act .observe), .near (.deliver 4), .near (.deliver 8),
    .far (.act .readCapsule),
    .far (.act .advance), .far (.act .advance), .far (.closes []), .near (.act .observe), .near (.act .closeDone)]

theorem capsules_agree_goodbye : ∃ s : State .quinn, Data.run step start goodbye = some s ∧
    s.far.received = some (7, "bye") ∧
    (∃ reason, (7, reason) ∈ s.near.asked ∧ s.near.first = some ⟨7, queuedReason reason⟩ ∧
      "bye" = capsuleReason (queuedReason reason)) ∧
    s.near.session.reported = [.webTransportError (.closed 7 "")] ∧
    ∀ error ∈ s.near.session.reported, Named (Given s.near s.far) error := by
  have runs : (Data.run step start goodbye).map (fun s => (s.far.received, s.near.session.reported)) =
      some (some (7, "bye"), [.webTransportError (.closed 7 "")]) := by decide +kernel
  obtain ⟨s, ran, seen⟩ := Option.map_eq_some_iff.mp runs
  obtain ⟨received, reported⟩ := Prod.mk.inj seen
  obtain ⟨_, returns, _⟩ := capsules_agree ran (.inr rfl)
  obtain ⟨_, _, reports, _⟩ := capsules_agree ran (.inl rfl)
  exact ⟨s, ran, received, returns 7 "bye" received, reported, reports⟩

end Webtrans.Session.Closing
