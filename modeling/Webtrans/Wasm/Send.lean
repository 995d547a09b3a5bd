import Webtrans.Wasm.Recv

namespace Webtrans.Wasm

open Webtrans.Data

/-! The browser's send stream (`webtrans-wasm/src/send.rs`), polled as its
receive stream is. -/

/-- The JS writer, which holds the lock of its stream. -/
structure Writer where
deriving DecidableEq, Repr

inductive WriteState where
  | idle
  -- The in-flight future owns the writer and a copy of the bytes.  Its first
  -- poll hands them to JS, as the write of that number.
  | writing (writer : Writer) (payload : List UInt8) (number : Option Nat)
deriving DecidableEq, Repr

structure SendStream where
  writer : Option Writer := some {}
  writeState : WriteState := .idle
  isClosed : Bool := false
deriving DecidableEq, Repr

/-- The JS stream: the chunks that it has been given, how their writes have
settled, in order, and whether it has been closed or aborted.  A settlement may
stand before its write, which then settles at once. -/
structure JsStream (ε : Type u) where
  handed : List (List UInt8) := []
  settled : List (Except ε Unit) := []
  closed : Bool := false
  aborted : Bool := false
deriving DecidableEq, Repr

namespace SendStream

variable {ε : Type u}

def errorUnavailable : StreamError ε :=
  .other "writer is unavailable"

def pollInflightWrite (stream : SendStream) (js : JsStream ε) :
    Poll (Except (StreamError ε) Nat) × SendStream × JsStream ε :=
  match stream.writeState with
  | .idle => (.ready (.ok 0), stream, js)
  | .writing writer payload number =>
      let (number, js) :=
        match number with
        | some number => (number, js)
        | none => (js.handed.length, { js with handed := js.handed ++ [payload] })
      match js.settled[number]? with
      | none => (.pending false, { stream with writeState := .writing writer payload (some number) }, js)
      | some result =>
          let stream := { stream with writer := some writer, writeState := .idle }
          match result with
          | .ok () => (.ready (.ok payload.length), stream, js)
          | .error error => (.ready (.error (.js error)), stream, js)

def pollWrite (stream : SendStream) (buf : List UInt8) (js : JsStream ε) :
    Poll (Except (StreamError ε) Nat) × SendStream × JsStream ε :=
  if buf = [] then (.ready (.ok 0), stream, js)
  else if stream.isClosed then (.ready (.error (.brokenPipe "stream is already closed")), stream, js)
  else
    match stream.pollInflightWrite js with
    | (.pending woken, stream, js) => (.pending woken, stream, js)
    | (.panicked, stream, js) => (.panicked, stream, js)
    | (.ready (.error error), stream, js) => (.ready (.error error), { stream with isClosed := true }, js)
    | (.ready (.ok _), stream, js) =>
        match stream.writeState with
        | .idle =>
            match stream.writer with
            | none => (.ready (.error errorUnavailable), stream, js)
            | some writer =>
                let payload := buf.take (min buf.length (64 * 1024))
                -- The owned chunk is now accepted, and no poll has begun its write.
                (.ready (.ok payload.length),
                  { stream with writer := none, writeState := .writing writer payload none }, js)
        -- `unreachable!("inflight write was drained")`
        | .writing _ _ _ => (.panicked, stream, js)

def pollFlush (stream : SendStream) (js : JsStream ε) :
    Poll (Except (StreamError ε) Unit) × SendStream × JsStream ε :=
  match stream.pollInflightWrite js with
  | (.pending woken, stream, js) => (.pending woken, stream, js)
  | (.panicked, stream, js) => (.panicked, stream, js)
  | (.ready (.ok _), stream, js) => (.ready (.ok ()), stream, js)
  | (.ready (.error error), stream, js) => (.ready (.error error), { stream with isClosed := true }, js)

def pollClose (stream : SendStream) (js : JsStream ε) :
    Poll (Except (StreamError ε) Unit) × SendStream × JsStream ε :=
  match stream.pollFlush js with
  | (.pending woken, stream, js) => (.pending woken, stream, js)
  | (.panicked, stream, js) => (.panicked, stream, js)
  | (.ready (.error error), stream, js) => (.ready (.error error), { stream with isClosed := true }, js)
  | (.ready (.ok ()), stream, js) =>
      if stream.isClosed then (.ready (.ok ()), stream, js)
      else
        match stream.writer with
        | none => (.ready (.error errorUnavailable), stream, js)
        | some _ => (.ready (.ok ()), { stream with isClosed := true }, { js with closed := true })

/-- Mark the stream as finished; a pending write is not lost silently. -/
def finish (stream : SendStream) (js : JsStream ε) : Except (StreamError ε) Unit × SendStream × JsStream ε :=
  match stream.writeState with
  | .writing _ _ _ => (.error (.other "flush pending writes before finish"), stream, js)
  | .idle =>
      (.ok (), { stream with isClosed := true }, { js with closed := js.closed || stream.writer.isSome })

/-- Send an immediate reset.  Dropping an in-flight write drops the writer with
it, and the stream itself is aborted in its place. -/
def reset (stream : SendStream) (js : JsStream ε) : SendStream × JsStream ε :=
  ({ stream with isClosed := true, writeState := .idle }, { js with aborted := true })

/-- Close an idle stream, or abort a dropped buffered write. -/
def drop (stream : SendStream) (js : JsStream ε) : SendStream × JsStream ε :=
  match stream.writeState with
  | .writing _ _ _ => stream.reset js
  | .idle => (stream, { js with closed := js.closed || stream.writer.isSome })

/-- The writer whose end `closed` awaits. -/
def closed (stream : SendStream) : Except (StreamError ε) Writer :=
  match stream.writer with
  | some writer => .ok writer
  | none => .error errorUnavailable

end SendStream

namespace Send

variable {ε : Type u}

/-- A call and what it answered. -/
inductive Answer (ε : Type u) where
  | write (buf : List UInt8) (poll : Poll (Except (StreamError ε) Nat))
  | flush (poll : Poll (Except (StreamError ε) Unit))
  | close (poll : Poll (Except (StreamError ε) Unit))
  | finish (result : Except (StreamError ε) Unit)
  | reset
  | closed (result : Except (StreamError ε) Writer)
deriving DecidableEq, Repr

namespace Answer

/-- The buffer prefix whose length the call returned, if it is not empty. -/
def accepted : Answer ε → List (List UInt8)
  | write buf (.ready (.ok size)) => if size = 0 then [] else [buf.take size]
  | _ => []

/-- The call has found no write in flight, or seen its end. -/
def Drained : Answer ε → Prop
  | flush poll => poll = .ready (.ok ())
  | close poll => poll = .ready (.ok ())
  | _ => False

/-- The writer is reported missing. -/
def Unavailable : Answer ε → Prop
  | write _ poll => poll = .ready (.error SendStream.errorUnavailable)
  | flush poll => poll = .ready (.error SendStream.errorUnavailable)
  | close poll => poll = .ready (.error SendStream.errorUnavailable)
  | finish result => result = .error SendStream.errorUnavailable
  | reset => False
  | closed result => result = .error SendStream.errorUnavailable

def Panicked : Answer ε → Prop
  | write _ poll => poll = .panicked
  | flush poll => poll = .panicked
  | close poll => poll = .panicked
  | _ => False

/-- The call reports this error of a JS write. -/
def Reports (error : ε) : Answer ε → Prop
  | write _ poll => poll = .ready (.error (.js error))
  | flush poll => poll = .ready (.error (.js error))
  | close poll => poll = .ready (.error (.js error))
  | _ => False

end Answer

/-- A stream, its JS side, all answers, whether a reset or a drop has dropped a
write in flight, and whether the stream itself has been dropped. -/
structure World (ε : Type u) where
  stream : SendStream := {}
  js : JsStream ε := {}
  log : List (Answer ε) := []
  abandoned : Bool := false
  dropped : Bool := false
deriving DecidableEq, Repr

inductive Call where
  | pollWrite (buf : List UInt8)
  | pollFlush
  | pollClose
  | finish
  | reset
  | closed
  | drop
deriving DecidableEq, Repr

/-- The call asks for the write in flight. -/
def Call.Polls : Call → Prop
  | pollWrite buf => buf ≠ []
  | pollFlush => True
  | pollClose => True
  | _ => False

def perform (world : World ε) : Call → World ε
  | .pollWrite buf =>
      let (poll, stream, js) := world.stream.pollWrite buf world.js
      { world with stream, js, log := world.log ++ [.write buf poll] }
  | .pollFlush =>
      let (poll, stream, js) := world.stream.pollFlush world.js
      { world with stream, js, log := world.log ++ [.flush poll] }
  | .pollClose =>
      let (poll, stream, js) := world.stream.pollClose world.js
      { world with stream, js, log := world.log ++ [.close poll] }
  | .finish =>
      let (result, stream, js) := world.stream.finish world.js
      { world with stream, js, log := world.log ++ [.finish result] }
  | .reset =>
      let (stream, js) := world.stream.reset world.js
      { world with
        stream
        js
        log := world.log ++ [.reset]
        abandoned := world.abandoned || decide (world.stream.writeState ≠ .idle) }
  | .closed => { world with log := world.log ++ [.closed world.stream.closed] }
  | .drop =>
      let (stream, js) := world.stream.drop world.js
      { world with
        stream
        js
        abandoned := world.abandoned || decide (world.stream.writeState ≠ .idle)
        dropped := true }

inductive Event (ε : Type u) where
  | settles (result : Except ε Unit)
  | call (call : Call)
deriving DecidableEq, Repr

def step (world : World ε) : Event ε → Option (World ε)
  | .settles result => some { world with js := { world.js with settled := world.js.settled ++ [result] } }
  | .call call => if world.dropped then none else some (perform world call)

/-- The chunks that the stream has accepted. -/
def accepted (log : List (Answer ε)) : List (List UInt8) :=
  log.flatMap Answer.accepted

/-- How the write in flight has settled. -/
def settlement (stream : SendStream) (js : JsStream ε) : Option (Except ε Unit) :=
  match stream.writeState with
  | .idle => none
  | .writing _ _ number => js.settled[number.getD js.handed.length]?

/-- The stream by the phase of its write: none, accepted but not begun, begun,
or dropped by a reset.  Only in the first of these does it own the writer. -/
inductive Holding (accepted : List (List UInt8)) : Bool → SendStream → JsStream ε → Prop where
  | resting {stream : SendStream} {js : JsStream ε} : stream.writeState = .idle → stream.writer = some {} →
      js.handed = accepted → js.handed.length ≤ js.settled.length → Holding accepted false stream js
  | waiting {stream : SendStream} {js : JsStream ε} {payload : List UInt8} :
      stream.writeState = .writing {} payload none → stream.writer = none → stream.isClosed = false →
      js.handed ++ [payload] = accepted → js.handed.length ≤ js.settled.length → js.closed = false →
      Holding accepted false stream js
  | begun {stream : SendStream} {js : JsStream ε} {payload : List UInt8} {number : Nat} :
      stream.writeState = .writing {} payload (some number) → stream.writer = none → stream.isClosed = false →
      js.handed = accepted → js.handed.length = number + 1 → number ≤ js.settled.length → js.closed = false →
      Holding accepted false stream js
  | lost {stream : SendStream} {js : JsStream ε} : stream.writeState = .idle → stream.writer = none →
      stream.isClosed = true → (js.handed = accepted ∨ ∃ last, js.handed ++ [last] = accepted) →
      js.handed.length ≤ js.settled.length + 1 → js.closed = false → Holding accepted true stream js

/-- What a poll of the write in flight may do. -/
inductive Inflight (chunks : List (List UInt8)) (abandoned : Bool) (stream : SendStream) (js : JsStream ε) :
    Poll (Except (StreamError ε) Nat) × SendStream × JsStream ε → Prop where
  | pending {after : SendStream} {rest : JsStream ε} : settlement stream js = none → js.handed <+: rest.handed →
      after.isClosed = stream.isClosed → rest.closed = js.closed → Holding chunks abandoned after rest →
      Inflight chunks abandoned stream js (.pending false, after, rest)
  | completed {after : SendStream} {rest : JsStream ε} {size : Nat} :
      (∀ error, settlement stream js ≠ some (.error error)) → js.handed <+: rest.handed →
      after.writeState = .idle → after.isClosed = stream.isClosed → rest.closed = js.closed →
      Holding chunks abandoned after rest →
      Inflight chunks abandoned stream js (.ready (.ok size), after, rest)
  | failed {after : SendStream} {rest : JsStream ε} {error : ε} :
      settlement stream js = some (.error error) → js.handed <+: rest.handed → after.writeState = .idle →
      Holding chunks abandoned after rest →
      Inflight chunks abandoned stream js (.ready (.error (.js error)), after, rest)

variable {chunks : List (List UInt8)} {abandoned : Bool} {stream : SendStream} {js : JsStream ε}

theorem poll_begun {payload : List UInt8} {number : Nat}
    (state : stream.writeState = .writing {} payload (some number)) (gone : stream.writer = none)
    (unclosed : stream.isClosed = false) (handed : js.handed = chunks) (last : js.handed.length = number + 1)
    (before : number ≤ js.settled.length) (still : js.closed = false) :
    Inflight chunks false stream js (stream.pollInflightWrite js) := by
  have found : settlement stream js = js.settled[number]? := by
    rw [settlement, state]
    rfl
  rw [SendStream.pollInflightWrite, state]
  dsimp only
  cases settled : js.settled[number]? with
  | none =>
      rw [settled] at found
      exact .pending found List.prefix_rfl rfl rfl (.begun rfl gone unclosed handed last before still)
  | some result =>
      rw [settled] at found
      have inside : number < js.settled.length := (List.getElem?_eq_some_iff.mp settled).1
      have resting : Holding chunks false { stream with writer := some {}, writeState := .idle } js :=
        .resting rfl rfl handed (by omega)
      cases result with
      | ok value =>
          refine .completed ?_ List.prefix_rfl rfl rfl rfl resting
          rw [found]
          exact nofun
      | error error => exact .failed found List.prefix_rfl rfl resting

/-- The first poll of an accepted write hands it over; the rest is the poll of
a write that has begun. -/
theorem poll_waiting {payload : List UInt8} (state : stream.writeState = .writing {} payload none) :
    let begun := { stream with writeState := .writing {} payload (some js.handed.length) }
    let handed := { js with handed := js.handed ++ [payload] }
    stream.pollInflightWrite js = begun.pollInflightWrite handed ∧
      settlement stream js = settlement begun handed := by
  obtain ⟨writer, writeState, isClosed⟩ := stream
  cases state
  exact ⟨rfl, rfl⟩

theorem pollInflightWrite_cases (holding : Holding chunks abandoned stream js) :
    Inflight chunks abandoned stream js (stream.pollInflightWrite js) := by
  cases holding with
  | resting state owned handed settled =>
      have found : settlement stream js = none := by rw [settlement, state]
      rw [SendStream.pollInflightWrite, state]
      refine .completed ?_ List.prefix_rfl state rfl rfl (.resting state owned handed settled)
      rw [found]
      exact nofun
  | lost state gone closed handed settled still =>
      have found : settlement stream js = none := by rw [settlement, state]
      rw [SendStream.pollInflightWrite, state]
      refine .completed ?_ List.prefix_rfl state rfl rfl (.lost state gone closed handed settled still)
      rw [found]
      exact nofun
  | begun state gone unclosed handed last before still =>
      exact poll_begun state gone unclosed handed last before still
  | @waiting _ _ payload state gone unclosed handed before still =>
      obtain ⟨same, found⟩ := @poll_waiting _ stream js payload state
      have begun := @poll_begun _ chunks { stream with writeState := .writing {} payload (some js.handed.length) }
        { js with handed := js.handed ++ [payload] } payload js.handed.length rfl gone unclosed handed
        (by simp) before still
      have more : js.handed <+: js.handed ++ [payload] := List.prefix_append _ _
      rw [same]
      generalize SendStream.pollInflightWrite _ _ = polled at begun ⊢
      cases begun with
      | pending none grows unclosed still holding =>
          exact .pending (found.trans none) (more.trans grows) unclosed still holding
      | completed fine grows idle unclosed still holding =>
          refine .completed ?_ (more.trans grows) idle unclosed still holding
          rw [found]
          exact fine
      | failed error grows idle holding => exact .failed (found.trans error) (more.trans grows) idle holding

/-! ## The calls -/

/-- What a call may answer; `polls` tells whether it asks for the write in
flight. -/
structure Answers (chunks : List (List UInt8)) (abandoned : Bool) (stream : SendStream) (js : JsStream ε)
    (polls : Prop) (answer : Answer ε) (after : SendStream) (rest : JsStream ε) : Prop where
  holding : Holding (chunks ++ answer.accepted) abandoned after rest
  grows : js.handed <+: rest.handed
  closing : rest.closed = true → after.isClosed = true
  frozen : stream.isClosed = true → answer.accepted = [] ∧ after.isClosed = true
  drained : answer.Drained → after.writeState = .idle
  reported : ∀ error, settlement stream js = some (.error error) → polls →
    answer.Reports error ∧ after.isClosed = true
  available : ¬ answer.Unavailable
  safe : ¬ answer.Panicked

theorem handed_drop (stream : SendStream) (js : JsStream ε) : (stream.drop js).2.handed = js.handed := by
  rw [SendStream.drop]
  cases stream.writeState <;> rfl

/-- A stream without a write in flight rests, or has lost its writer. -/
theorem Holding.idle_cases (holding : Holding chunks abandoned stream js) (idle : stream.writeState = .idle) :
    (abandoned = false ∧ stream.writer = some {} ∧ js.handed = chunks ∧
      js.handed.length ≤ js.settled.length) ∨
    (abandoned = true ∧ stream.writer = none ∧ stream.isClosed = true ∧
      (js.handed = chunks ∨ ∃ last, js.handed ++ [last] = chunks) ∧
      js.handed.length ≤ js.settled.length + 1 ∧ js.closed = false) := by
  cases holding with
  | resting _ owned handed settled => exact .inl ⟨rfl, owned, handed, settled⟩
  | lost _ gone closed handed settled still => exact .inr ⟨rfl, gone, closed, handed, settled, still⟩
  | waiting state =>
      rw [idle] at state
      cases state
  | begun state =>
      rw [idle] at state
      cases state

theorem Holding.close (holding : Holding chunks abandoned stream js) (idle : stream.writeState = .idle) :
    Holding chunks abandoned { stream with isClosed := true } js := by
  rcases holding.idle_cases idle with ⟨rfl, owned, handed, settled⟩ | ⟨rfl, gone, _, handed, settled, still⟩
  · exact .resting idle owned handed settled
  · exact .lost idle gone rfl handed settled still

/-- Closing the writer touches the JS side only where the writer is owned. -/
theorem Holding.closeWriter (holding : Holding chunks abandoned stream js) (idle : stream.writeState = .idle) :
    Holding chunks abandoned stream { js with closed := js.closed || stream.writer.isSome } := by
  rcases holding.idle_cases idle with ⟨rfl, owned, handed, settled⟩ |
    ⟨rfl, gone, closed, handed, settled, still⟩
  · exact .resting idle owned handed settled
  · exact .lost idle gone closed handed settled (by simp [still, gone])

/-- A stream without a write in flight that is not closed owns its writer. -/
theorem Holding.owned (holding : Holding chunks abandoned stream js) (idle : stream.writeState = .idle)
    (unclosed : stream.isClosed = false) :
    abandoned = false ∧ stream.writer = some {} ∧ js.handed = chunks ∧
      js.handed.length ≤ js.settled.length := by
  rcases holding.idle_cases idle with rests | ⟨_, _, closed, _⟩
  · exact rests
  · rw [unclosed] at closed
    cases closed

theorem Holding.handed_idle (holding : Holding chunks false stream js) (idle : stream.writeState = .idle) :
    js.handed = chunks := by
  rcases holding.idle_cases idle with ⟨_, _, handed, _⟩ | lost
  · exact handed
  · cases lost.1

/-- While a write is in flight the stream is open. -/
theorem Holding.closed_idle (holding : Holding chunks abandoned stream js) (closed : stream.isClosed = true) :
    stream.writeState = .idle := by
  cases holding with
  | resting state => exact state
  | lost state => exact state
  | waiting _ _ unclosed =>
      rw [closed] at unclosed
      cases unclosed
  | begun _ _ unclosed =>
      rw [closed] at unclosed
      cases unclosed

theorem settlement_idle (idle : stream.writeState = .idle) : settlement stream js = none := by
  rw [settlement, idle]

/-- An answer that accepts nothing and reports nothing, of a stream that stays
as it is. -/
theorem Answers.idle {answer : Answer ε} {polls : Prop} (holding : Holding chunks abandoned stream js)
    (closing : js.closed = true → stream.isClosed = true) (none : answer.accepted = [])
    (drained : answer.Drained → stream.writeState = .idle)
    (quiet : ∀ error, settlement stream js = some (.error error) → ¬ polls)
    (available : ¬ answer.Unavailable) (safe : ¬ answer.Panicked) :
    Answers chunks abandoned stream js polls answer stream js where
  holding := by
    rw [none, List.append_nil]
    exact holding
  grows := List.prefix_rfl
  closing := closing
  frozen closed := ⟨none, closed⟩
  drained := drained
  reported error failed polled := absurd polled (quiet error failed)
  available := available
  safe := safe

section Inflight

variable {answer : Answer ε} {polls : Prop} {after : SendStream} {rest : JsStream ε}

theorem Answers.pending (closing : js.closed = true → stream.isClosed = true)
    (unsettled : settlement stream js = none) (grows : js.handed <+: rest.handed)
    (same : after.isClosed = stream.isClosed)
    (still : rest.closed = js.closed) (holding : Holding chunks abandoned after rest)
    (none : answer.accepted = []) (drained : ¬ answer.Drained) (available : ¬ answer.Unavailable)
    (safe : ¬ answer.Panicked) : Answers chunks abandoned stream js polls answer after rest where
  holding := by
    rw [none, List.append_nil]
    exact holding
  grows := grows
  closing closed := by
    rw [same]
    exact closing (still.symm.trans closed)
  frozen closed := ⟨none, same.trans closed⟩
  drained drains := absurd drains drained
  reported error failed := by
    rw [unsettled] at failed
    cases failed
  available := available
  safe := safe

/-- The error of a write is reported, and closes the stream. -/
theorem Answers.failed {error : ε} (found : settlement stream js = some (.error error))
    (grows : js.handed <+: rest.handed) (idle : after.writeState = .idle)
    (holding : Holding chunks abandoned after rest) (none : answer.accepted = [])
    (reports : answer.Reports error) (drained : ¬ answer.Drained)
    (available : ¬ answer.Unavailable) (safe : ¬ answer.Panicked) :
    Answers chunks abandoned stream js polls answer { after with isClosed := true } rest where
  holding := by
    rw [none, List.append_nil]
    exact holding.close idle
  grows := grows
  closing _ := rfl
  frozen _ := ⟨none, rfl⟩
  drained drains := absurd drains drained
  reported other failed _ := by
    rw [found] at failed
    cases failed
    exact ⟨reports, rfl⟩
  available := available
  safe := safe

end Inflight

/-- The end of a poll that finds no write in flight, or a completed one. -/
theorem Answers.completed {answer : Answer ε} {polls : Prop} {after : SendStream} {rest : JsStream ε}
    (fine : ∀ error, settlement stream js ≠ some (.error error)) (grows : js.handed <+: rest.handed)
    (idle : after.writeState = .idle) (holding : Holding chunks abandoned after rest)
    (closing : rest.closed = true → after.isClosed = true)
    (frozen : stream.isClosed = true → after.isClosed = true) (none : answer.accepted = [])
    (available : ¬ answer.Unavailable) (safe : ¬ answer.Panicked) :
    Answers chunks abandoned stream js polls answer after rest where
  holding := by
    rw [none, List.append_nil]
    exact holding
  grows := grows
  closing := closing
  frozen closed := ⟨none, frozen closed⟩
  drained _ := idle
  reported error failed := absurd failed (fine error)
  available := available
  safe := safe

theorem accepted_payload {buf : List UInt8} (nonempty : buf ≠ []) :
    (Answer.write buf (.ready (.ok (buf.take (min buf.length (64 * 1024))).length)) : Answer ε).accepted =
      [buf.take (min buf.length (64 * 1024))] := by
  have some := List.length_pos_iff.mpr nonempty
  have size : (buf.take (min buf.length (64 * 1024))).length = min buf.length (64 * 1024) := by
    rw [List.length_take]
    omega
  rw [size, Answer.accepted, if_neg (by omega)]

section Calls

variable (holding : Holding chunks abandoned stream js) (closing : js.closed = true → stream.isClosed = true)

include holding closing

theorem write_answers (buf : List UInt8) :
    Answers chunks abandoned stream js (buf ≠ []) (.write buf (stream.pollWrite buf js).1)
      (stream.pollWrite buf js).2.1 (stream.pollWrite buf js).2.2 := by
  rw [SendStream.pollWrite]
  by_cases empty : buf = []
  · rw [if_pos empty]
    exact .idle holding closing rfl nofun (fun _ _ => not_not_intro empty) nofun nofun
  · rw [if_neg empty]
    cases shut : stream.isClosed with
    | true =>
        refine .idle holding closing rfl nofun ?_ nofun nofun
        rw [settlement_idle (holding.closed_idle shut)]
        exact nofun
    | false =>
        rw [if_neg Bool.false_ne_true]
        have polled := pollInflightWrite_cases holding
        generalize stream.pollInflightWrite js = result at polled
        cases polled with
        | pending unsettled grows same still holding =>
            exact .pending closing unsettled grows same still holding rfl nofun nofun nofun
        | failed found grows idle holding => exact .failed found grows idle holding rfl rfl nofun nofun nofun
        | @completed after rest _ fine grows idle same still holding =>
            obtain ⟨rfl, owned, handed, settled⟩ := holding.owned idle (same.trans shut)
            dsimp only
            rw [idle, owned]
            dsimp only
            have unclosed : rest.closed = false := by
              cases closed : rest.closed with
              | false => rfl
              | true => exact (closing (still.symm.trans closed)).symm.trans shut
            refine ⟨?_, grows, ?_, ?_, nofun, fun error failed => absurd failed (fine error), nofun, nofun⟩
            · rw [accepted_payload empty]
              refine .waiting rfl rfl (same.trans shut) ?_ settled unclosed
              rw [handed]
            · intro closed
              rw [unclosed] at closed
              cases closed
            · intro closed
              rw [shut] at closed
              cases closed

theorem flush_answers :
    Answers chunks abandoned stream js True (.flush (stream.pollFlush js).1)
      (stream.pollFlush js).2.1 (stream.pollFlush js).2.2 := by
  rw [SendStream.pollFlush]
  have polled := pollInflightWrite_cases holding
  generalize stream.pollInflightWrite js = result at polled
  cases polled with
  | pending unsettled grows same still holding =>
      exact .pending closing unsettled grows same still holding rfl nofun nofun nofun
  | failed found grows idle holding => exact .failed found grows idle holding rfl rfl nofun nofun nofun
  | completed fine grows idle same still holding =>
      refine .completed fine grows idle holding ?_ same.trans rfl nofun nofun
      intro closed
      exact same.trans (closing (still.symm.trans closed))

theorem close_answers :
    Answers chunks abandoned stream js True (.close (stream.pollClose js).1)
      (stream.pollClose js).2.1 (stream.pollClose js).2.2 := by
  rw [SendStream.pollClose, SendStream.pollFlush]
  have polled := pollInflightWrite_cases holding
  generalize stream.pollInflightWrite js = result at polled
  cases polled with
  | pending unsettled grows same still holding =>
      exact .pending closing unsettled grows same still holding rfl nofun nofun nofun
  | failed found grows idle holding =>
      dsimp only
      exact .failed found grows idle holding rfl rfl nofun nofun nofun
  | @completed after rest _ fine grows idle same still holding =>
      dsimp only
      cases shut : after.isClosed with
      | true =>
          rw [if_pos rfl]
          exact .completed fine grows idle holding (fun _ => shut) (fun _ => shut) rfl nofun nofun
      | false =>
          rw [if_neg Bool.false_ne_true]
          obtain ⟨rfl, owned, handed, settled⟩ := holding.owned idle shut
          rw [owned]
          dsimp only
          exact .completed fine grows idle (.resting idle rfl handed settled) (fun _ => rfl)
            (fun _ => rfl) rfl nofun nofun

theorem finish_answers :
    Answers chunks abandoned stream js False (.finish (stream.finish js).1)
      (stream.finish js).2.1 (stream.finish js).2.2 := by
  rw [SendStream.finish]
  cases state : stream.writeState with
  | writing writer payload number =>
      refine .idle holding closing rfl nofun (fun _ _ => not_false) ?_ nofun
      intro unavailable
      simp [Answer.Unavailable, SendStream.errorUnavailable] at unavailable
  | idle =>
      have fine : ∀ error, settlement stream js ≠ some (.error error) := by
        rw [settlement_idle state]
        exact nofun
      have finished := (holding.closeWriter state).close state
      rw [state] at finished
      exact .completed fine List.prefix_rfl rfl finished (fun _ => rfl) (fun _ => rfl) rfl nofun nofun

omit closing

theorem reset_answers :
    Holding chunks (abandoned || decide (stream.writeState ≠ .idle)) (stream.reset js).1 (stream.reset js).2 := by
  cases holding with
  | resting state owned handed settled =>
      rw [state]
      exact .resting rfl owned handed settled
  | lost state gone closed handed settled still => exact .lost rfl gone rfl handed settled still
  | waiting state gone _ handed settled still =>
      rw [state]
      exact .lost rfl gone rfl (.inr ⟨_, handed⟩) (by simp only [SendStream.reset]; omega) still
  | begun state gone _ handed last before still =>
      rw [state]
      exact .lost rfl gone rfl (.inl handed) (by simp only [SendStream.reset]; omega) still

theorem drop_answers :
    Holding chunks (abandoned || decide (stream.writeState ≠ .idle)) (stream.drop js).1 (stream.drop js).2 := by
  cases state : stream.writeState with
  | writing writer payload number =>
      have dropped := reset_answers holding
      rw [SendStream.drop, state]
      rw [state] at dropped
      exact dropped
  | idle =>
      rw [SendStream.drop, state]
      have dropped := holding.closeWriter state
      simpa using dropped

end Calls

/-! ## Runs -/

theorem Holding.settles (holding : Holding chunks abandoned stream js) (result : Except ε Unit) :
    Holding chunks abandoned stream { js with settled := js.settled ++ [result] } := by
  have more : js.settled.length ≤ (js.settled ++ [result]).length := by simp
  cases holding with
  | resting state owned handed settled => exact .resting state owned handed (Nat.le_trans settled more)
  | waiting state gone unclosed handed settled still =>
      exact .waiting state gone unclosed handed (Nat.le_trans settled more) still
  | begun state gone unclosed handed last before still =>
      exact .begun state gone unclosed handed last (Nat.le_trans before more) still
  | lost state gone closed handed settled still =>
      exact .lost state gone closed handed (Nat.le_trans settled (Nat.succ_le_succ more)) still

/-- What was accepted before a successful flush or close of a stream that has
not been reset has been handed over. -/
def Flushed (log : List (Answer ε)) (handed : List (List UInt8)) : Prop :=
  ∀ front answer back, log = front ++ answer :: back → answer.Drained → .reset ∉ front →
    accepted front <+: handed

theorem Flushed.append {log : List (Answer ε)} {answer : Answer ε} {handed more : List (List UInt8)}
    (flushed : Flushed log handed) (grows : handed <+: more)
    (now : answer.Drained → .reset ∉ log → accepted log <+: more) : Flushed (log ++ [answer]) more := by
  intro front other back split drained unreset
  rcases List.eq_nil_or_concat' back with rfl | ⟨later, last, rfl⟩
  · obtain ⟨rfl, same⟩ := List.append_inj' split rfl
    cases same
    exact now drained unreset
  · rw [← List.cons_append, ← List.append_assoc] at split
    obtain ⟨rfl, _⟩ := List.append_inj' split rfl
    exact (flushed front other later rfl drained unreset).trans grows

/-- The invariant of all runs. -/
structure Sound (world : World ε) : Prop where
  holding : Holding (accepted world.log) world.abandoned world.stream world.js
  closing : world.js.closed = true → world.stream.isClosed = true ∨ world.dropped = true
  unreset : world.dropped = false → world.abandoned = true → .reset ∈ world.log
  flushed : Flushed world.log world.js.handed
  safe : ∀ answer ∈ world.log, ¬ answer.Panicked

theorem accepted_append (log : List (Answer ε)) (answer : Answer ε) :
    accepted (log ++ [answer]) = accepted log ++ answer.accepted := by
  simp [accepted]

theorem accepted_silent (log : List (Answer ε)) {answer : Answer ε} (none : answer.accepted = []) :
    accepted (log ++ [answer]) = accepted log := by
  rw [accepted_append, none, List.append_nil]

variable {world : World ε}

theorem Sound.answer {answer : Answer ε} {polls : Prop} {after : SendStream} {rest : JsStream ε}
    (sound : Sound world) (kept : world.dropped = false)
    (answers : Answers (accepted world.log) world.abandoned world.stream world.js polls answer after rest) :
    Sound { world with stream := after, js := rest, log := world.log ++ [answer] } where
  holding := by
    rw [accepted_append]
    exact answers.holding
  closing closed := .inl (answers.closing closed)
  unreset kept lost := List.mem_append_left _ (sound.unreset kept lost)
  flushed := by
    refine sound.flushed.append answers.grows ?_
    intro drains unreset
    have idle := answers.drained drains
    have holding := answers.holding
    cases present : world.abandoned with
    | true => exact absurd (sound.unreset kept present) unreset
    | false =>
        rw [present] at holding
        rw [holding.handed_idle idle]
        exact List.prefix_append _ _
  safe := List.forall_mem_append.mpr ⟨sound.safe, List.forall_mem_singleton.mpr answers.safe⟩

theorem Sound.closing_kept (sound : Sound world) (kept : world.dropped = false)
    (closed : world.js.closed = true) : world.stream.isClosed = true := by
  rcases sound.closing closed with shut | dropped
  · exact shut
  · rw [kept] at dropped
    cases dropped

theorem Sound.reset (sound : Sound world) : Sound (perform world .reset) where
  holding := by
    rw [perform, accepted_silent world.log rfl]
    exact reset_answers sound.holding
  closing _ := .inl rfl
  unreset _ _ := List.mem_append_right _ (List.mem_singleton_self _)
  flushed := sound.flushed.append List.prefix_rfl nofun
  safe := List.forall_mem_append.mpr ⟨sound.safe, List.forall_mem_singleton.mpr not_false⟩

theorem Sound.closed (sound : Sound world) : Sound (perform world .closed) where
  holding := by
    rw [perform, accepted_silent world.log rfl]
    exact sound.holding
  closing := sound.closing
  unreset kept lost := List.mem_append_left _ (sound.unreset kept lost)
  flushed := sound.flushed.append List.prefix_rfl nofun
  safe := List.forall_mem_append.mpr ⟨sound.safe, List.forall_mem_singleton.mpr not_false⟩

theorem Sound.drop (sound : Sound world) : Sound (perform world .drop) where
  holding := drop_answers sound.holding
  closing _ := .inr rfl
  unreset kept := by cases kept
  flushed := by
    rw [perform, handed_drop]
    exact sound.flushed
  safe := sound.safe

theorem Sound.settles (sound : Sound world) (result : Except ε Unit) :
    Sound { world with js := { world.js with settled := world.js.settled ++ [result] } } where
  holding := sound.holding.settles result
  closing := sound.closing
  unreset := sound.unreset
  flushed := sound.flushed
  safe := sound.safe

theorem step_call {next : World ε} {call : Call} (stepped : step world (.call call) = some next) :
    world.dropped = false ∧ next = perform world call := by
  rw [step] at stepped
  cases kept : world.dropped with
  | true => simp [kept] at stepped
  | false => simpa [kept] using stepped.symm

/-- What a call may do: answer with what the write in flight allows, or be one
of the three that do not look at it. -/
theorem perform_cases (sound : Sound world) (kept : world.dropped = false) (call : Call) :
    (∃ answer after rest,
      perform world call = { world with stream := after, js := rest, log := world.log ++ [answer] } ∧
      Answers (accepted world.log) world.abandoned world.stream world.js call.Polls answer after rest) ∨
    call = .reset ∨ call = .closed ∨ call = .drop := by
  have closing := sound.closing_kept kept
  cases call with
  | pollWrite buf => exact .inl ⟨_, _, _, rfl, write_answers sound.holding closing buf⟩
  | pollFlush => exact .inl ⟨_, _, _, rfl, flush_answers sound.holding closing⟩
  | pollClose => exact .inl ⟨_, _, _, rfl, close_answers sound.holding closing⟩
  | finish => exact .inl ⟨_, _, _, rfl, finish_answers sound.holding closing⟩
  | reset => simp
  | closed => simp
  | drop => simp

theorem sound_step {next : World ε} {event : Event ε} (sound : Sound world)
    (stepped : step world event = some next) : Sound next := by
  cases event with
  | settles result =>
      cases stepped
      exact sound.settles result
  | call call =>
      obtain ⟨kept, rfl⟩ := step_call stepped
      rcases perform_cases sound kept call with ⟨answer, after, rest, same, answers⟩ | rfl | rfl | rfl
      · rw [same]
        exact sound.answer kept answers
      · exact sound.reset
      · exact sound.closed
      · exact sound.drop

theorem sound_start : Sound ({} : World ε) :=
  ⟨.resting rfl rfl rfl (Nat.le_refl _), nofun, fun _ => nofun, by simp [Flushed], by simp⟩

theorem run_sound {events : List (Event ε)} (ran : run step {} events = some world) : Sound world :=
  run_invariant sound_step sound_start ran

/-- A poll that finds the write in flight failed reports its error, and closes
the stream. -/
theorem step_reports {next : World ε} {error : ε} {call : Call} (sound : Sound world)
    (failed : settlement world.stream world.js = some (.error error)) (polls : call.Polls)
    (stepped : step world (.call call) = some next) :
    ∃ answer, next.log = world.log ++ [answer] ∧ answer.Reports error ∧ next.stream.isClosed = true := by
  obtain ⟨kept, rfl⟩ := step_call stepped
  rcases perform_cases sound kept call with ⟨answer, after, rest, same, answers⟩ | rfl | rfl | rfl
  · rw [same]
    exact ⟨answer, rfl, answers.reported error failed polls⟩
  · exact polls.elim
  · exact polls.elim
  · exact polls.elim

/-- A closed stream stays closed, and accepts nothing more. -/
theorem step_frozen {next : World ε} {event : Event ε} (sound : Sound world)
    (shut : world.stream.isClosed = true) (stepped : step world event = some next) :
    next.stream.isClosed = true ∧ accepted next.log = accepted world.log := by
  cases event with
  | settles result =>
      cases stepped
      exact ⟨shut, rfl⟩
  | call call =>
      obtain ⟨kept, rfl⟩ := step_call stepped
      rcases perform_cases sound kept call with ⟨answer, after, rest, same, answers⟩ | rfl | rfl | rfl
      · obtain ⟨none, still⟩ := answers.frozen shut
        rw [same]
        exact ⟨still, accepted_silent world.log none⟩
      · exact ⟨rfl, accepted_silent world.log rfl⟩
      · exact ⟨shut, accepted_silent world.log rfl⟩
      · refine ⟨?_, rfl⟩
        rw [perform, SendStream.drop]
        cases world.stream.writeState with
        | idle => exact shut
        | writing writer payload number => rfl

theorem run_frozen {last : World ε} {events : List (Event ε)} (sound : Sound world)
    (shut : world.stream.isClosed = true) (ran : run step world events = some last) :
    accepted last.log = accepted world.log := by
  let frozen (state : World ε) : Prop :=
    Sound state ∧ state.stream.isClosed = true ∧ accepted state.log = accepted world.log
  have kept : ∀ {state event next}, frozen state → step state event = some next → frozen next := by
    intro state event next before stepped
    obtain ⟨sound, shut, same⟩ := before
    obtain ⟨still, none⟩ := step_frozen sound shut stepped
    exact ⟨sound_step sound stepped, still, none.trans same⟩
  have after : frozen last := run_invariant kept ⟨sound, shut, rfl⟩ ran
  exact after.2.2

theorem Holding.handed (holding : Holding chunks abandoned stream js) :
    js.handed = chunks ∨ ∃ last, js.handed ++ [last] = chunks := by
  cases holding with
  | resting _ _ handed => exact .inl handed
  | waiting _ _ _ handed => exact .inr ⟨_, handed⟩
  | begun _ _ _ handed => exact .inl handed
  | lost _ _ _ handed => exact handed

theorem Holding.unsettled (holding : Holding chunks abandoned stream js) :
    js.handed.length ≤ js.settled.length + 1 := by
  cases holding <;> omega

/-- Only at rest may the JS side have been closed. -/
theorem Holding.closed (holding : Holding chunks abandoned stream js) (closed : js.closed = true) :
    js.handed = chunks ∧ js.handed.length ≤ js.settled.length := by
  cases holding with
  | resting _ _ handed settled => exact ⟨handed, settled⟩
  | waiting _ _ _ _ _ still =>
      rw [still] at closed
      cases closed
  | begun _ _ _ _ _ _ still =>
      rw [still] at closed
      cases closed
  | lost _ _ _ _ _ still =>
      rw [still] at closed
      cases closed

/-- The stream hands every chunk that it accepts to JS once and in order,
whatever is called and whenever JS settles its writes.  It lacks at most the
last one, and none that a flush has covered.  One write is in flight at most,
none when the writer is closed.  An error of a write is reported to the next
call that polls it, and nothing is accepted behind it. -/
theorem writes_once {events : List (Event ε)} (ran : run step {} events = some world) :
    (world.js.handed = accepted world.log ∨ ∃ last, world.js.handed ++ [last] = accepted world.log) ∧
    (∀ front answer back, world.log = front ++ answer :: back → answer.Drained → .reset ∉ front →
      accepted front <+: world.js.handed) ∧
    world.js.handed.length ≤ world.js.settled.length + 1 ∧
    (world.js.closed = true → world.js.handed = accepted world.log ∧
      world.js.handed.length ≤ world.js.settled.length) ∧
    (∀ error call next, settlement world.stream world.js = some (.error error) → call.Polls →
      step world (.call call) = some next →
      ∃ answer, next.log = world.log ++ [answer] ∧ answer.Reports error ∧
        ∀ later last, run step next later = some last → accepted last.log = accepted next.log) ∧
    ∀ answer ∈ world.log, ¬ answer.Panicked := by
  have sound := run_sound ran
  refine ⟨sound.holding.handed, sound.flushed, sound.holding.unsettled, sound.holding.closed, ?_, sound.safe⟩
  intro error call next failed polls stepped
  obtain ⟨answer, logged, reports, shut⟩ := step_reports sound failed polls stepped
  refine ⟨answer, logged, reports, ?_⟩
  intro later last ran
  exact run_frozen (sound_step sound stepped) shut ran

/-- A write whose caller is cancelled, and that is drained by the next one. -/
def cancelledWrite : List (Event Unit) :=
  [.call (.pollWrite [1, 2]), .call (.pollWrite [3, 4, 5]), .call .finish, .settles (.ok ()),
    .call (.pollWrite [6]), .settles (.ok ()), .call .pollFlush, .call .pollClose]

theorem writes_once_cancelled :
    ∃ world, run step {} cancelledWrite = some world ∧
      (world.js.handed = accepted world.log ∨ ∃ last, world.js.handed ++ [last] = accepted world.log) ∧
      (∀ front answer back, world.log = front ++ answer :: back → answer.Drained → .reset ∉ front →
        accepted front <+: world.js.handed) ∧
      world.js.handed.length ≤ world.js.settled.length + 1 ∧
      (world.js.closed = true → world.js.handed = accepted world.log ∧
        world.js.handed.length ≤ world.js.settled.length) ∧
      (∀ error call next, settlement world.stream world.js = some (.error error) → call.Polls →
        step world (.call call) = some next →
        ∃ answer, next.log = world.log ++ [answer] ∧ answer.Reports error ∧
          ∀ later last, run step next later = some last → accepted last.log = accepted next.log) ∧
      ∀ answer ∈ world.log, ¬ answer.Panicked := by
  obtain ⟨world, ran⟩ := Option.isSome_iff_exists.mp
    (show (run step {} cancelledWrite).isSome = true by decide)
  exact ⟨world, ran, writes_once ran⟩

example : (run step {} cancelledWrite).map (fun world => (world.js.handed, world.js.closed)) =
    some ([[1, 2], [6]], true) := by
  decide

end Send

end Webtrans.Wasm
