import Webtrans.Data.Transition

namespace Webtrans.Wasm

open Webtrans.Data

/-! The browser's receive stream (`webtrans-wasm/src/recv.rs`).

An async method polls the stream again and again and keeps nothing of its own
between two polls, so a dropped future is one that is not polled again, and
runs are sequences of polls.  JS resolves its promises between them. -/

/-- What a poll returns.  A pending poll may have woken its own task. -/
inductive Poll (α : Type u) where
  | pending (woken : Bool)
  | ready (value : α)
  | panicked
deriving DecidableEq, Repr

/-- `io::Error` as the streams make it: their own, or one from JS. -/
inductive StreamError (ε : Type u) where
  | other (text : String)
  | brokenPipe (text : String)
  | js (error : ε)
deriving DecidableEq, Repr

/-- The JS reader, which holds the lock of its stream. -/
structure Reader where
deriving DecidableEq, Repr

inductive ReadState where
  | idle
  -- The in-flight future owns the reader.
  | reading (reader : Reader)
deriving DecidableEq, Repr

structure RecvStream where
  eof : Bool := false
  reader : Option Reader := some {}
  buffer : List UInt8 := []
  readState : ReadState := .idle
deriving DecidableEq, Repr

/-- What a JS read resolves to. -/
inductive JsRead (ε : Type u) where
  | chunk (bytes : List UInt8)
  | done
  | failed (error : ε)
deriving DecidableEq, Repr

namespace JsRead

variable {ε : Type u}

def result : JsRead ε → Except (StreamError ε) (Option (List UInt8))
  | chunk bytes => .ok (some bytes)
  | done => .ok none
  | failed error => .error (.js error)

/-- The end of the source, or its error. -/
def Ends : JsRead ε → Prop
  | chunk _ => False
  | _ => True

end JsRead

namespace RecvStream

variable {ε : Type u}

def errorUnavailable : StreamError ε :=
  .other "reader is unavailable"

/-- Poll the in-flight read; `results` are those of the reads that JS has
completed and nobody has seen. -/
def pollInflightRead (stream : RecvStream) (results : List (JsRead ε)) :
    Poll (Except (StreamError ε) (Option (List UInt8))) × RecvStream × List (JsRead ε) :=
  match stream.readState with
  | .idle => (.ready (.ok none), stream, results)
  | .reading reader =>
      match results with
      | [] => (.pending false, stream, [])
      | read :: results =>
          (.ready read.result, { stream with reader := some reader, readState := .idle }, results)

/-- Start a read if none is in flight. -/
def startRead (stream : RecvStream) : Except (StreamError ε) RecvStream :=
  match stream.readState with
  | .reading _ => .ok stream
  | .idle =>
      match stream.reader with
      | some reader => .ok { stream with reader := none, readState := .reading reader }
      | none => .error errorUnavailable

/-- The loop of `poll_chunk`, for so many rounds. -/
def pollRounds (max : Nat) : Nat → RecvStream → List (JsRead ε) →
    Poll (Except (StreamError ε) (Option (List UInt8))) × RecvStream × List (JsRead ε)
  | 0, stream, results => (.pending true, stream, results)
  | rounds + 1, stream, results =>
      if stream.buffer ≠ [] then
        let size := min max stream.buffer.length
        (.ready (.ok (some (stream.buffer.take size))),
          { stream with buffer := stream.buffer.drop size }, results)
      else if stream.eof then (.ready (.ok none), stream, results)
      else
        match stream.startRead with
        | .error error => (.ready (.error error), stream, results)
        | .ok stream =>
            match stream.pollInflightRead results with
            | (.pending woken, stream, results) => (.pending woken, stream, results)
            | (.panicked, stream, results) => (.panicked, stream, results)
            | (.ready (.error error), stream, results) =>
                (.ready (.error error), { stream with eof := true }, results)
            | (.ready (.ok none), stream, results) => (.ready (.ok none), { stream with eof := true }, results)
            | (.ready (.ok (some chunk)), stream, results) =>
                pollRounds max rounds { stream with buffer := chunk } results

/-- Bound work per poll if a JS source produces empty chunks repeatedly. -/
def pollChunk (stream : RecvStream) (max : Nat) (results : List (JsRead ε)) :
    Poll (Except (StreamError ε) (Option (List UInt8))) × RecvStream × List (JsRead ε) :=
  if max = 0 then (.ready (.ok (some [])), stream, results) else pollRounds max 16 stream results

/-- `AsyncRead::poll_read` with a destination of some length; the bytes are
those that it has copied there. -/
def pollRead (stream : RecvStream) (length : Nat) (results : List (JsRead ε)) :
    Poll (Except (StreamError ε) (List UInt8)) × RecvStream × List (JsRead ε) :=
  match stream.pollChunk length results with
  | (.pending woken, stream, results) => (.pending woken, stream, results)
  | (.panicked, stream, results) => (.panicked, stream, results)
  | (.ready (.error error), stream, results) => (.ready (.error error), stream, results)
  | (.ready (.ok none), stream, results) => (.ready (.ok []), stream, results)
  | (.ready (.ok (some chunk)), stream, results) =>
      if chunk.length ≤ length then (.ready (.ok chunk), stream, results) else (.panicked, stream, results)

/-- Abort reading.  Dropping an in-flight read drops the reader with it. -/
def stop (stream : RecvStream) : RecvStream :=
  { stream with eof := true, buffer := [], readState := .idle }

/-- The reader whose end `closed` awaits. -/
def closed (stream : RecvStream) : Except (StreamError ε) Reader :=
  match stream.reader with
  | some reader => .ok reader
  | none => .error errorUnavailable

end RecvStream

namespace Recv

variable {ε : Type u}

/-- A call and what it answered. -/
inductive Answer (ε : Type u) where
  | chunk (max : Nat) (poll : Poll (Except (StreamError ε) (Option (List UInt8))))
  | read (length : Nat) (poll : Poll (Except (StreamError ε) (List UInt8)))
  | closed (result : Except (StreamError ε) Reader)
deriving DecidableEq, Repr

def chunkBytes : Poll (Except (StreamError ε) (Option (List UInt8))) → List UInt8
  | .ready (.ok (some bytes)) => bytes
  | _ => []

def readBytes : Poll (Except (StreamError ε) (List UInt8)) → List UInt8
  | .ready (.ok bytes) => bytes
  | _ => []

namespace Answer

def bytes : Answer ε → List UInt8
  | chunk _ poll => chunkBytes poll
  | read _ poll => readBytes poll
  | closed _ => []

/-- The room that the caller offered. -/
def room : Answer ε → Nat
  | chunk max _ => max
  | read length _ => length
  | closed _ => 0

/-- The answer reports the end: no chunk, or no bytes for a destination that
is not empty. -/
def ReportsEnd : Answer ε → Prop
  | chunk _ poll => poll = .ready (.ok none)
  | read length poll => poll = .ready (.ok []) ∧ length ≠ 0
  | closed _ => False

/-- The reader is reported missing. -/
def Unavailable : Answer ε → Prop
  | chunk _ poll => poll = .ready (.error RecvStream.errorUnavailable)
  | read _ poll => poll = .ready (.error RecvStream.errorUnavailable)
  | closed result => result = .error RecvStream.errorUnavailable

/-- The call has panicked. -/
def Panicked : Answer ε → Prop
  | chunk _ poll => poll = .panicked
  | read _ poll => poll = .panicked
  | closed _ => False

/-- The call was a poll for bytes. -/
def IsPoll : Answer ε → Prop
  | closed _ => False
  | _ => True

end Answer

/-- A stream, its JS source, and what has happened: all results of JS reads so
far, all answers, and whether a stop has dropped a read in flight. -/
structure World (ε : Type u) where
  stream : RecvStream := {}
  results : List (JsRead ε) := []
  delivered : List (JsRead ε) := []
  log : List (Answer ε) := []
  abandoned : Bool := false
deriving DecidableEq, Repr

inductive Event (ε : Type u) where
  | completes (read : JsRead ε)
  | pollChunk (max : Nat)
  | pollRead (length : Nat)
  | stop
  | closed
deriving DecidableEq, Repr

def step (world : World ε) : Event ε → Option (World ε)
  | .completes read => some
      { world with results := world.results ++ [read], delivered := world.delivered ++ [read] }
  | .pollChunk max =>
      let (poll, stream, results) := world.stream.pollChunk max world.results
      some { world with stream, results, log := world.log ++ [.chunk max poll] }
  | .pollRead length =>
      let (poll, stream, results) := world.stream.pollRead length world.results
      some { world with stream, results, log := world.log ++ [.read length poll] }
  | .stop => some
      { world with
        stream := world.stream.stop
        abandoned := world.abandoned || decide (world.stream.readState ≠ .idle) }
  | .closed => some { world with log := world.log ++ [.closed world.stream.closed] }

/-- The bytes of the source before its end or error. -/
def sourceBytes : List (JsRead ε) → List UInt8
  | [] => []
  | .chunk bytes :: reads => bytes ++ sourceBytes reads
  | .done :: _ => []
  | .failed _ :: _ => []

def returned (log : List (Answer ε)) : List UInt8 :=
  log.flatMap Answer.bytes

theorem sourceBytes_seen (seen : List (List UInt8)) (rest : List (JsRead ε)) :
    sourceBytes (seen.map .chunk ++ rest) = seen.flatten ++ sourceBytes rest := by
  induction seen with
  | nil => rfl
  | cons bytes seen ih =>
      rw [List.map_cons, List.cons_append, sourceBytes, ih, List.flatten_cons, List.append_assoc]

theorem sourceBytes_ends {ending : JsRead ε} (ends : ending.Ends) (rest : List (JsRead ε)) :
    sourceBytes (ending :: rest) = [] := by
  cases ending with
  | chunk bytes => exact ends.elim
  | _ => rfl

/-- Every byte that JS has handed over is in one place: returned, in the
buffer, or in a result that nobody has seen.  The reader is with the stream
unless a read is in flight. -/
structure Sound (delivered : List (JsRead ε)) (returned : List UInt8) (stream : RecvStream)
    (results : List (JsRead ε)) : Prop where
  owned : stream.readState = .idle → stream.reader = some {}
  source : ∃ seen : List (List UInt8), returned ++ stream.buffer = seen.flatten ∧
    (stream.eof = false ∧ delivered = seen.map .chunk ++ results ∨
      stream.eof = true ∧ ∃ ending : JsRead ε, ending.Ends ∧ delivered = seen.map .chunk ++ ending :: results)

/-- The source has ended or failed, and these are all bytes before that. -/
def Finished (delivered : List (JsRead ε)) (returned : List UInt8) : Prop :=
  sourceBytes delivered = returned ∧ ∃ ending ∈ delivered, ending.Ends

/-- What a poll of a chunk may do, with these bytes returned before. -/
structure Delivers (delivered : List (JsRead ε)) (before : List UInt8) (max : Nat)
    (polled : Poll (Except (StreamError ε) (Option (List UInt8))) × RecvStream × List (JsRead ε)) : Prop where
  sound : Sound delivered (before ++ chunkBytes polled.1) polled.2.1 polled.2.2
  room : (chunkBytes polled.1).length ≤ max
  nonempty : polled.1 ≠ .ready (.ok (some []))
  ended : polled.1 = .ready (.ok none) → Finished delivered before
  available : polled.1 ≠ .ready (.error RecvStream.errorUnavailable)
  safe : polled.1 ≠ .panicked

variable {delivered : List (JsRead ε)} {before : List UInt8} {stream : RecvStream}
  {results : List (JsRead ε)} {max : Nat}

theorem Sound.finished (sound : Sound delivered before stream results) (drained : stream.buffer = [])
    (eof : stream.eof = true) : Finished delivered before := by
  obtain ⟨seen, held, open_ | closed⟩ := sound.source
  · rw [eof] at open_
    cases open_.1
  · obtain ⟨_, ending, ends, rfl⟩ := closed
    rw [drained, List.append_nil] at held
    refine ⟨?_, ending, by simp, ends⟩
    rw [sourceBytes_seen, sourceBytes_ends ends, List.append_nil, held]

/-- Of an open stream with an empty buffer, all that JS has completed and
nobody has seen follows the returned bytes. -/
theorem Sound.seen (sound : Sound delivered before stream results) (drained : stream.buffer = [])
    (unended : stream.eof = false) :
    ∃ seen : List (List UInt8), before = seen.flatten ∧ delivered = seen.map .chunk ++ results := by
  obtain ⟨seen, held, ⟨_, split⟩ | closed⟩ := sound.source
  · rw [drained, List.append_nil] at held
    exact ⟨seen, held, split⟩
  · rw [unended] at closed
    cases closed.1

theorem Sound.startRead (sound : Sound delivered before stream results) :
    ∃ started : RecvStream, (stream.startRead : Except (StreamError ε) RecvStream) = .ok started ∧
      started.readState = .reading {} ∧ started.buffer = stream.buffer ∧ started.eof = stream.eof := by
  rw [RecvStream.startRead]
  cases state : stream.readState with
  | reading reader => exact ⟨stream, rfl, state, rfl, rfl⟩
  | idle =>
      rw [sound.owned state]
      exact ⟨_, rfl, rfl, rfl, rfl⟩

/-- A poll that returns no bytes and leaves the stream as it should be. -/
theorem Delivers.silent {poll : Poll (Except (StreamError ε) (Option (List UInt8)))} {after : RecvStream}
    {rest : List (JsRead ε)} (none : chunkBytes poll = []) (sound : Sound delivered before after rest)
    (nonempty : poll ≠ .ready (.ok (some []))) (ended : poll = .ready (.ok .none) → Finished delivered before)
    (available : poll ≠ .ready (.error RecvStream.errorUnavailable)) (safe : poll ≠ .panicked) :
    Delivers delivered before max (poll, after, rest) where
  sound := by
    rw [none, List.append_nil]
    exact sound
  room := by
    rw [none]
    exact Nat.zero_le _
  nonempty := nonempty
  ended := ended
  available := available
  safe := safe

/-- Bytes that are at hand are returned from the front of the buffer. -/
theorem Delivers.buffered (positive : 0 < max) (sound : Sound delivered before stream results)
    (held : stream.buffer ≠ []) :
    Delivers delivered before max (.ready (.ok (some (stream.buffer.take (min max stream.buffer.length)))),
      { stream with buffer := stream.buffer.drop (min max stream.buffer.length) }, results) := by
  have some := List.length_pos_iff.mpr held
  refine ⟨⟨sound.owned, ?_⟩, ?_, ?_, nofun, nofun, nofun⟩
  · obtain ⟨seen, whole, split⟩ := sound.source
    refine ⟨seen, ?_, split⟩
    rw [chunkBytes, List.append_assoc, List.take_append_drop, whole]
  · rw [chunkBytes, List.length_take]
    omega
  · intro empty
    have none := congrArg (fun poll => (chunkBytes poll).length) empty
    simp only [chunkBytes, List.length_take, List.length_nil] at none
    omega

theorem pollRounds_delivers (positive : 0 < max) (rounds : Nat)
    (sound : Sound delivered before stream results) :
    Delivers delivered before max (stream.pollRounds max rounds results) := by
  induction rounds generalizing stream results with
  | zero => exact .silent rfl sound nofun nofun nofun nofun
  | succ rounds ih =>
      rw [RecvStream.pollRounds]
      by_cases held : stream.buffer ≠ []
      · rw [if_pos held]
        exact .buffered positive sound held
      · rw [if_neg held]
        rw [ne_eq, not_not] at held
        cases unended : stream.eof with
        | true => exact .silent rfl sound nofun (fun _ => sound.finished held unended) nofun nofun
        | false =>
            obtain ⟨seen, rfl, split⟩ := sound.seen held unended
            obtain ⟨started, start, reading, drained, still⟩ := sound.startRead
            rw [if_neg Bool.false_ne_true, start]
            dsimp only
            rw [RecvStream.pollInflightRead, reading]
            rw [held] at drained
            rw [unended] at still
            cases results with
            | nil =>
                refine .silent rfl ⟨?_, seen, ?_, .inl ⟨still, split⟩⟩ nofun nofun nofun nofun
                · intro idle
                  rw [reading] at idle
                  cases idle
                · rw [drained, List.append_nil]
            | cons read results =>
                cases read with
                | chunk bytes =>
                    refine ih ⟨fun _ => rfl, seen ++ [bytes], ?_, .inl ⟨still, ?_⟩⟩
                    · rw [List.flatten_append, List.flatten_singleton]
                    · rw [split, List.map_append, List.append_assoc]
                      rfl
                | done =>
                    have after : Sound delivered seen.flatten
                        { started with eof := true, reader := some {}, readState := .idle } results :=
                      ⟨fun _ => rfl, seen, by rw [drained, List.append_nil], .inr ⟨rfl, .done, trivial, split⟩⟩
                    exact .silent rfl after nofun (fun _ => after.finished drained rfl) nofun nofun
                | failed error =>
                    have after : Sound delivered seen.flatten
                        { started with eof := true, reader := some {}, readState := .idle } results :=
                      ⟨fun _ => rfl, seen, by rw [drained, List.append_nil],
                        .inr ⟨rfl, .failed error, trivial, split⟩⟩
                    exact .silent rfl after nofun nofun nofun nofun

/-- What a call may answer, with these bytes returned before. -/
structure Answers (delivered : List (JsRead ε)) (before : List UInt8) (answer : Answer ε)
    (stream : RecvStream) (results : List (JsRead ε)) : Prop where
  sound : Sound delivered (before ++ answer.bytes) stream results
  room : answer.bytes.length ≤ answer.room
  ended : answer.ReportsEnd → Finished delivered before
  available : answer.IsPoll → ¬ answer.Unavailable
  safe : ¬ answer.Panicked

theorem pollChunk_zero (stream : RecvStream) (results : List (JsRead ε)) :
    stream.pollChunk 0 results = (.ready (.ok (some [])), stream, results) := rfl

theorem pollRead_zero (stream : RecvStream) (results : List (JsRead ε)) :
    stream.pollRead 0 results = (.ready (.ok []), stream, results) := rfl

/-- A call that moves no bytes and reports nothing. -/
theorem Answers.idle {answer : Answer ε} (sound : Sound delivered before stream results)
    (none : answer.bytes = []) (ended : ¬ answer.ReportsEnd) (available : answer.IsPoll → ¬ answer.Unavailable)
    (safe : ¬ answer.Panicked) : Answers delivered before answer stream results where
  sound := by
    rw [none, List.append_nil]
    exact sound
  room := by
    rw [none]
    exact Nat.zero_le _
  ended reports := absurd reports ended
  available := available
  safe := safe

theorem pollChunk_delivers (positive : 0 < max) (sound : Sound delivered before stream results) :
    Delivers delivered before max (stream.pollChunk max results) := by
  rw [RecvStream.pollChunk, if_neg (Nat.ne_of_gt positive)]
  exact pollRounds_delivers positive 16 sound

theorem chunk_answers (sound : Sound delivered before stream results) :
    Answers delivered before (.chunk max (stream.pollChunk max results).1)
      (stream.pollChunk max results).2.1 (stream.pollChunk max results).2.2 := by
  rcases Nat.eq_zero_or_pos max with rfl | positive
  · rw [pollChunk_zero]
    exact .idle sound rfl nofun nofun nofun
  · have delivers := pollChunk_delivers positive sound
    exact ⟨delivers.sound, delivers.room, delivers.ended, fun _ => delivers.available, delivers.safe⟩

theorem read_answers {length : Nat} (sound : Sound delivered before stream results) :
    Answers delivered before (.read length (stream.pollRead length results).1)
      (stream.pollRead length results).2.1 (stream.pollRead length results).2.2 := by
  rcases Nat.eq_zero_or_pos length with rfl | positive
  · rw [pollRead_zero]
    exact .idle sound rfl (fun reports => reports.2 rfl) nofun nofun
  · have delivers := pollChunk_delivers positive sound
    rw [RecvStream.pollRead]
    generalize stream.pollChunk length results = polled at delivers
    obtain ⟨poll, after, rest⟩ := polled
    have sound := delivers.sound
    cases poll with
    | pending woken => exact ⟨sound, Nat.zero_le _, nofun, nofun, nofun⟩
    | panicked => exact absurd rfl delivers.safe
    | ready value =>
        cases value with
        | error error =>
            refine ⟨sound, Nat.zero_le _, nofun, ?_, nofun⟩
            intro _ unavailable
            cases unavailable
            exact delivers.available rfl
        | ok found =>
            cases found with
            | none => exact ⟨sound, Nat.zero_le _, fun _ => delivers.ended rfl, nofun, nofun⟩
            | some chunk =>
                have fits : chunk.length ≤ length := delivers.room
                dsimp only
                rw [if_pos fits]
                refine ⟨sound, fits, ?_, nofun, nofun⟩
                intro reports
                obtain ⟨empty, _⟩ := reports
                cases empty
                exact absurd rfl delivers.nonempty

theorem Finished.append (finished : Finished delivered before) (read : JsRead ε) :
    Finished (delivered ++ [read]) before := by
  obtain ⟨same, ending, member, ends⟩ := finished
  refine ⟨?_, ending, List.mem_append_left _ member, ends⟩
  rw [← same]
  clear same
  induction delivered with
  | nil => cases member
  | cons first delivered ih =>
      cases first with
      | done => rfl
      | failed error => rfl
      | chunk bytes =>
          rcases List.mem_cons.mp member with rfl | later
          · exact ends.elim
          · rw [List.cons_append, sourceBytes, sourceBytes, ih later]

theorem Sound.completes (sound : Sound delivered before stream results) (read : JsRead ε) :
    Sound (delivered ++ [read]) before stream (results ++ [read]) := by
  obtain ⟨owned, seen, held, ⟨unended, rfl⟩ | ⟨eof, ending, ends, rfl⟩⟩ := sound
  · exact ⟨owned, seen, held, .inl ⟨unended, List.append_assoc ..⟩⟩
  · exact ⟨owned, seen, held, .inr ⟨eof, ending, ends, List.append_assoc ..⟩⟩

/-- The invariant of runs without a stop. -/
structure Told (world : World ε) : Prop where
  sound : Sound world.delivered (returned world.log) world.stream world.results
  rooms : ∀ answer ∈ world.log, answer.bytes.length ≤ answer.room
  ended : ∀ front answer, world.log = front ++ [answer] → answer.ReportsEnd →
    Finished world.delivered (returned front)
  available : ∀ answer ∈ world.log, answer.IsPoll → ¬ answer.Unavailable
  safe : ∀ answer ∈ world.log, ¬ answer.Panicked

theorem Told.answer {world : World ε} {answer : Answer ε} (told : Told world)
    (answers : Answers world.delivered (returned world.log) answer stream results) :
    Told { world with stream, results, log := world.log ++ [answer] } where
  sound := by
    have sound := answers.sound
    rw [show returned (world.log ++ [answer]) = returned world.log ++ answer.bytes by
      simp [returned]]
    exact sound
  rooms := List.forall_mem_append.mpr ⟨told.rooms, List.forall_mem_singleton.mpr answers.room⟩
  ended := by
    intro front other split reports
    obtain ⟨rfl, same⟩ := List.append_inj' split rfl
    cases same
    exact answers.ended reports
  available := List.forall_mem_append.mpr ⟨told.available, List.forall_mem_singleton.mpr answers.available⟩
  safe := List.forall_mem_append.mpr ⟨told.safe, List.forall_mem_singleton.mpr answers.safe⟩

theorem told_step {world next : World ε} {event : Event ε} (told : Told world)
    (stepped : step world event = some next) (goes : event ≠ .stop) : Told next := by
  cases event with
  | completes read =>
      cases stepped
      exact ⟨told.sound.completes read, told.rooms,
        fun front answer split reports => (told.ended front answer split reports).append read,
        told.available, told.safe⟩
  | pollChunk max =>
      cases stepped
      exact told.answer (chunk_answers told.sound)
  | pollRead length =>
      cases stepped
      exact told.answer (read_answers told.sound)
  | stop => exact absurd rfl goes
  | closed =>
      cases stepped
      exact told.answer (.idle told.sound rfl nofun nofun nofun)

theorem Sound.returned_front (sound : Sound delivered before stream results) :
    before <+: sourceBytes delivered := by
  obtain ⟨seen, held, ⟨_, rfl⟩ | ⟨_, ending, _, rfl⟩⟩ := sound.source
  · rw [sourceBytes_seen, ← held, List.append_assoc]
    exact List.prefix_append _ _
  · rw [sourceBytes_seen, ← held, List.append_assoc]
    exact List.prefix_append _ _

theorem run_told {events : List (Event ε)} {world : World ε} (ran : run step {} events = some world)
    (unstopped : ∀ event ∈ events, event ≠ .stop) : Told world := by
  have initial : Told ({} : World ε) :=
    ⟨⟨fun _ => rfl, [], rfl, .inl ⟨rfl, rfl⟩⟩, nofun, by simp, nofun, nofun⟩
  exact run_following told_step initial unstopped ran

/-- Without a stop the stream delivers every byte once and in order, whatever
is polled and whenever JS completes its reads: at most as many at a time as the
caller has room for, the end only behind the last of them, and never an error
of its own. -/
theorem delivers_once {events : List (Event ε)} {world : World ε} (ran : run step {} events = some world)
    (unstopped : ∀ event ∈ events, event ≠ .stop) :
    returned world.log <+: sourceBytes world.delivered ∧
    (∀ answer ∈ world.log, answer.bytes.length ≤ answer.room) ∧
    (∀ front answer, world.log = front ++ [answer] → answer.ReportsEnd →
      Finished world.delivered (returned front)) ∧
    (∀ event next, event = .pollChunk 0 ∨ event = .pollRead 0 → step world event = some next →
      next.stream = world.stream ∧ next.results = world.results) ∧
    (∀ answer ∈ world.log, answer.IsPoll → ¬ answer.Unavailable) ∧
    ∀ answer ∈ world.log, ¬ answer.Panicked := by
  have told := run_told ran unstopped
  refine ⟨told.sound.returned_front, told.rooms, told.ended, ?_, told.available, told.safe⟩
  intro event next zero stepped
  rcases zero with rfl | rfl
  · cases stepped
    exact ⟨rfl, rfl⟩
  · cases stepped
    exact ⟨rfl, rfl⟩

/-- A cancelled read that is resumed through either method. -/
def cancelledRead : List (Event Unit) :=
  [.pollChunk 0, .pollChunk 2, .completes (.chunk [1, 2, 3, 4]), .completes .done, .pollRead 1,
    .pollChunk 2, .pollChunk 2, .pollChunk 2]

theorem delivers_once_cancelled :
    ∃ world, run step {} cancelledRead = some world ∧
      returned world.log <+: sourceBytes world.delivered ∧
      (∀ answer ∈ world.log, answer.bytes.length ≤ answer.room) ∧
      (∀ front answer, world.log = front ++ [answer] → answer.ReportsEnd →
        Finished world.delivered (returned front)) ∧
      (∀ event next, event = .pollChunk 0 ∨ event = .pollRead 0 → step world event = some next →
        next.stream = world.stream ∧ next.results = world.results) ∧
      (∀ answer ∈ world.log, answer.IsPoll → ¬ answer.Unavailable) ∧
      ∀ answer ∈ world.log, ¬ answer.Panicked := by
  obtain ⟨world, ran⟩ := Option.isSome_iff_exists.mp
    (show (run step {} cancelledRead).isSome = true by decide)
  exact ⟨world, ran, delivers_once ran (by decide)⟩

example : (run step {} cancelledRead).map (fun world => world.log.map Answer.bytes) =
    some [[], [], [1], [2, 3], [4], []] := by
  decide

end Recv

end Webtrans.Wasm
