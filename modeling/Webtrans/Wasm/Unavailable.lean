import Webtrans.Wasm.Send

namespace Webtrans.Wasm

open Webtrans.Data

/-! Who holds the reader or the writer.

A call in flight owns it, and dropping the call drops it too.  The polls look
for it only where it is with the stream; `closed` looks for it at any time. -/

namespace Recv

variable {ε : Type u}

/-- `closed` is called while a read in flight owns the reader, or after a stop
has dropped it. -/
def AsksLent (world : World ε) (event : Event ε) : Prop :=
  event = .closed ∧ (world.stream.readState ≠ .idle ∨ world.abandoned = true)

/-- Where the reader is: with the stream, in the read in flight, or dropped. -/
inductive Lending : Bool → RecvStream → Prop where
  | owned {stream : RecvStream} : stream.readState = .idle → stream.reader = some {} → Lending false stream
  | lent {stream : RecvStream} : stream.readState = .reading {} → stream.reader = none → Lending false stream
  | lost {stream : RecvStream} : stream.readState = .idle → stream.reader = none → stream.buffer = [] →
      stream.eof = true → Lending true stream

variable {abandoned : Bool} {stream : RecvStream}

theorem Lending.buffered (lending : Lending abandoned stream) (held : stream.buffer ≠ []) (buffer : List UInt8) :
    Lending abandoned { stream with buffer } := by
  cases lending with
  | owned state reader => exact .owned state reader
  | lent state reader => exact .lent state reader
  | lost _ _ drained => exact absurd drained held

theorem Lending.started (lending : Lending abandoned stream) (unended : stream.eof = false) :
    abandoned = false ∧ ∃ started : RecvStream,
      (stream.startRead : Except (StreamError ε) RecvStream) = .ok started ∧
      started.readState = .reading {} ∧ started.reader = none := by
  rw [RecvStream.startRead]
  cases lending with
  | owned state reader =>
      rw [state, reader]
      exact ⟨rfl, _, rfl, rfl, rfl⟩
  | lent state reader =>
      rw [state]
      exact ⟨rfl, stream, rfl, state, reader⟩
  | lost _ _ _ eof =>
      rw [unended] at eof
      cases eof

/-- A loop that starts reads only while the reader is at hand, or lent to the
read that it polls. -/
theorem pollRounds_lends {max : Nat} (rounds : Nat) {results : List (JsRead ε)} (lending : Lending abandoned stream) :
    Lending abandoned (stream.pollRounds max rounds results).2.1 ∧
      (stream.pollRounds max rounds results).1 ≠ .ready (.error RecvStream.errorUnavailable) := by
  induction rounds generalizing stream results with
  | zero => exact ⟨lending, by simp [RecvStream.pollRounds]⟩
  | succ rounds ih =>
      rw [RecvStream.pollRounds]
      by_cases held : stream.buffer ≠ []
      · rw [if_pos held]
        exact ⟨lending.buffered held _, by simp⟩
      · rw [if_neg held]
        cases unended : stream.eof with
        | true => exact ⟨lending, by simp⟩
        | false =>
            obtain ⟨rfl, started, start, reading, gone⟩ := lending.started unended
            rw [if_neg Bool.false_ne_true, start]
            dsimp only
            rw [RecvStream.pollInflightRead, reading]
            cases results with
            | nil => exact ⟨.lent reading gone, by simp⟩
            | cons read results =>
                cases read with
                | chunk bytes => exact ih (.owned rfl rfl)
                | done => exact ⟨.owned rfl rfl, by simp [JsRead.result]⟩
                | failed error =>
                    exact ⟨.owned rfl rfl, by simp [JsRead.result, RecvStream.errorUnavailable]⟩

theorem pollChunk_lends (max : Nat) (results : List (JsRead ε)) (lending : Lending abandoned stream) :
    Lending abandoned (stream.pollChunk max results).2.1 ∧
      (stream.pollChunk max results).1 ≠ .ready (.error RecvStream.errorUnavailable) := by
  rw [RecvStream.pollChunk]
  by_cases zero : max = 0
  · rw [if_pos zero]
    exact ⟨lending, by simp⟩
  · rw [if_neg zero]
    exact pollRounds_lends 16 lending

theorem pollRead_lends (length : Nat) (results : List (JsRead ε)) (lending : Lending abandoned stream) :
    Lending abandoned (stream.pollRead length results).2.1 ∧
      (stream.pollRead length results).1 ≠ .ready (.error RecvStream.errorUnavailable) := by
  obtain ⟨after, available⟩ := pollChunk_lends length results lending
  rw [RecvStream.pollRead]
  generalize stream.pollChunk length results = polled at after available
  obtain ⟨poll, stream, results⟩ := polled
  cases poll with
  | pending woken => exact ⟨after, by simp⟩
  | panicked => exact ⟨after, by simp⟩
  | ready value =>
      cases value with
      | error error =>
          refine ⟨after, ?_⟩
          intro unavailable
          cases unavailable
          exact available rfl
      | ok found =>
          cases found with
          | none => exact ⟨after, by simp⟩
          | some chunk =>
              dsimp only
              split
              · exact ⟨after, by simp⟩
              · exact ⟨after, by simp⟩

theorem Lending.stop (lending : Lending abandoned stream) :
    Lending (abandoned || decide (stream.readState ≠ .idle)) stream.stop := by
  cases lending with
  | owned state reader =>
      rw [state]
      exact .owned rfl reader
  | lent state reader =>
      rw [state]
      exact .lost rfl reader rfl rfl
  | lost _ reader => exact .lost rfl reader rfl rfl

theorem lending_step {world next : World ε} {event : Event ε} (lending : Lending world.abandoned world.stream)
    (stepped : step world event = some next) : Lending next.abandoned next.stream := by
  cases event with
  | completes read =>
      cases stepped
      exact lending
  | pollChunk max =>
      cases stepped
      exact (pollChunk_lends max world.results lending).1
  | pollRead length =>
      cases stepped
      exact (pollRead_lends length world.results lending).1
  | stop =>
      cases stepped
      exact lending.stop
  | closed =>
      cases stepped
      exact lending

theorem Lending.closed_iff (lending : Lending abandoned stream) :
    (stream.closed : Except (StreamError ε) Reader) = .error RecvStream.errorUnavailable ↔
      stream.readState ≠ .idle ∨ abandoned = true := by
  rw [RecvStream.closed]
  cases lending with
  | owned state reader => simp [state, reader]
  | lent state reader => simp [state, reader]
  | lost state reader => simp [reader]

/-- Of the calls, only a `closed` at a lent reader reports it missing. -/
theorem available_step {world next : World ε} {event : Event ε} (lending : Lending world.abandoned world.stream)
    (before : ∀ answer ∈ world.log, ¬ answer.Unavailable) (stepped : step world event = some next) :
    (∀ answer ∈ next.log, ¬ answer.Unavailable) ↔ ¬ AsksLent world event := by
  have other : event ≠ .closed → ¬ AsksLent world event := fun differs asks => differs asks.1
  cases event with
  | completes read =>
      cases stepped
      exact iff_of_true before (other (by simp))
  | pollChunk max =>
      cases stepped
      have last : ¬ (Answer.chunk max (world.stream.pollChunk max world.results).1).Unavailable :=
        (pollChunk_lends max world.results lending).2
      exact iff_of_true (List.forall_mem_append.mpr ⟨before, List.forall_mem_singleton.mpr last⟩) (other (by simp))
  | pollRead length =>
      cases stepped
      have last : ¬ (Answer.read length (world.stream.pollRead length world.results).1).Unavailable :=
        (pollRead_lends length world.results lending).2
      exact iff_of_true (List.forall_mem_append.mpr ⟨before, List.forall_mem_singleton.mpr last⟩) (other (by simp))
  | stop =>
      cases stepped
      exact iff_of_true before (other (by simp))
  | closed =>
      cases stepped
      have asked := @Lending.closed_iff ε _ _ lending
      simp only [AsksLent, List.forall_mem_append, List.forall_mem_singleton, Answer.Unavailable, asked, true_and]
      exact and_iff_right before

theorem reader_available_iff {events : List (Event ε)} {world : World ε} (ran : run step {} events = some world) :
    Always step (fun state => ∀ answer ∈ state.log, ¬ answer.Unavailable) {} events ↔
      EachStep step (fun state event => ¬ AsksLent state event) {} events :=
  always_iff_eachStep lending_step available_step (.owned rfl rfl) (by simp) ran

end Recv

namespace Send

variable {ε : Type u}

/-- `closed` is called while a write in flight owns the writer, or after a
reset has dropped it. -/
def AsksLent (world : World ε) (event : Event ε) : Prop :=
  event = .call .closed ∧ (world.stream.writeState ≠ .idle ∨ world.abandoned = true)

theorem Holding.closed_iff {chunks : List (List UInt8)} {abandoned : Bool} {stream : SendStream} {js : JsStream ε}
    (holding : Holding chunks abandoned stream js) :
    (stream.closed : Except (StreamError ε) Writer) = .error SendStream.errorUnavailable ↔
      stream.writeState ≠ .idle ∨ abandoned = true := by
  rw [SendStream.closed]
  cases holding with
  | resting state writer => simp [state, writer]
  | waiting state writer => simp [state, writer]
  | begun state writer => simp [state, writer]
  | lost state writer => simp [writer]

theorem available_step {world next : World ε} {event : Event ε} (sound : Sound world)
    (before : ∀ answer ∈ world.log, ¬ answer.Unavailable) (stepped : step world event = some next) :
    (∀ answer ∈ next.log, ¬ answer.Unavailable) ↔ ¬ AsksLent world event := by
  have other : event ≠ .call .closed → ¬ AsksLent world event := fun differs asks => differs asks.1
  cases event with
  | settles result =>
      cases stepped
      exact iff_of_true before (other (by simp))
  | call call =>
      obtain ⟨kept, rfl⟩ := step_call stepped
      by_cases asks : call = .closed
      · subst asks
        have asked := sound.holding.closed_iff
        simp only [AsksLent, perform, List.forall_mem_append, List.forall_mem_singleton, Answer.Unavailable,
          asked, true_and]
        exact and_iff_right before
      · refine iff_of_true ?_ (other (by simpa using asks))
        rcases perform_cases sound kept call with ⟨answer, after, rest, same, answers⟩ | rfl | rfl | rfl
        · rw [same]
          refine List.forall_mem_append.mpr ⟨before, List.forall_mem_singleton.mpr ?_⟩
          exact answers.available
        · exact List.forall_mem_append.mpr ⟨before, List.forall_mem_singleton.mpr not_false⟩
        · exact absurd rfl asks
        · exact before

theorem writer_available_iff {events : List (Event ε)} {world : World ε} (ran : run step {} events = some world) :
    Always step (fun state => ∀ answer ∈ state.log, ¬ answer.Unavailable) {} events ↔
      EachStep step (fun state event => ¬ AsksLent state event) {} events :=
  always_iff_eachStep sound_step available_step sound_start (by simp) ran

end Send

/-- No call on a receive stream ever reports the reader missing, and none on a
send stream the writer, exactly in the runs that call `closed` neither while a
call in flight owns it nor after a stop or reset has dropped that call. -/
theorem available_iff {ε : Type u} {reads : List (Recv.Event ε)} {received : Recv.World ε}
    {writes : List (Send.Event ε)} {sent : Send.World ε} (ranReads : run Recv.step {} reads = some received)
    (ranWrites : run Send.step {} writes = some sent) :
    (Always Recv.step (fun state => ∀ answer ∈ state.log, ¬ answer.Unavailable) {} reads ↔
      EachStep Recv.step (fun state event => ¬ Recv.AsksLent state event) {} reads) ∧
    (Always Send.step (fun state => ∀ answer ∈ state.log, ¬ answer.Unavailable) {} writes ↔
      EachStep Send.step (fun state event => ¬ Send.AsksLent state event) {} writes) :=
  ⟨Recv.reader_available_iff ranReads, Send.writer_available_iff ranWrites⟩

/-- A receive stream asked for its end behind the last read. -/
def Recv.endedReads : List (Recv.Event Unit) :=
  [.pollChunk 1, .completes .done, .pollChunk 1, .closed]

/-- A send stream asked for its end behind the last write. -/
def Send.endedWrites : List (Send.Event Unit) :=
  [.call (.pollWrite [1]), .settles (.ok ()), .call .pollClose, .call .closed]

theorem available_iff_ended :
    ∃ received sent, run Recv.step {} Recv.endedReads = some received ∧
      run Send.step {} Send.endedWrites = some sent ∧
      (Always Recv.step (fun state => ∀ answer ∈ state.log, ¬ answer.Unavailable) {} Recv.endedReads ↔
        EachStep Recv.step (fun state event => ¬ Recv.AsksLent state event) {} Recv.endedReads) ∧
      (Always Send.step (fun state => ∀ answer ∈ state.log, ¬ answer.Unavailable) {} Send.endedWrites ↔
        EachStep Send.step (fun state event => ¬ Send.AsksLent state event) {} Send.endedWrites) := by
  obtain ⟨received, ranReads⟩ := Option.isSome_iff_exists.mp
    (show (run Recv.step {} Recv.endedReads).isSome = true by decide)
  obtain ⟨sent, ranWrites⟩ := Option.isSome_iff_exists.mp
    (show (run Send.step {} Send.endedWrites).isSome = true by decide)
  exact ⟨received, sent, ranReads, ranWrites, available_iff ranReads ranWrites⟩

/-- A read that its caller has cancelled, and a write that has been accepted. -/
theorem closed_unavailable :
    (run Recv.step ({} : Recv.World Unit) [.pollChunk 2, .closed]).map (·.log) =
      some [.chunk 2 (.pending false), .closed (.error (.other "reader is unavailable"))] ∧
    (run Send.step ({} : Send.World Unit) [.call (.pollWrite [1]), .call .closed]).map (·.log) =
      some [.write [1] (.ready (.ok 1)), .closed (.error (.other "writer is unavailable"))] := by
  decide

end Webtrans.Wasm
