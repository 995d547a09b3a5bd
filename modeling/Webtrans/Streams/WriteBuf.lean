import Webtrans.Streams.WriteHelpers

namespace Webtrans.Streams

open Webtrans.Data

/-! The implementations of `SendStream::write_buf`: the trait's own, and those
of `webtrans-quinn/src/send.rs` and `webtrans-quion/src/send.rs`. -/

/-- A QUIC stream as the backends use it.  An empty write accepts nothing. -/
structure QuicStream (σ : Type u) (ε : Type v) extends SendStream σ ε where
  write_empty {state after : σ} {result : Except ε Nat} : write state [] = (result, after) →
    received after = received state ∧ ∀ size, result = .ok size → size = 0

/-- Single writes are repeated until all bytes are accepted or one fails. -/
inductive Repeats {σ : Type u} {ε : Type v} (stream : SendStream σ ε) :
    σ → List UInt8 → Except ε Unit → σ → Prop where
  | accepted (state : σ) : Repeats stream state [] (.ok ()) state
  | failed {state after : σ} {bytes : List UInt8} {error : ε} : bytes ≠ [] →
      stream.write state bytes = (.error error, after) → Repeats stream state bytes (.error error) after
  | more {state middle after : σ} {bytes : List UInt8} {size : Nat} {result : Except ε Unit} : bytes ≠ [] →
      stream.write state bytes = (.ok size, middle) → Repeats stream middle (bytes.drop size) result after →
      Repeats stream state bytes result after

/-- `quinn::SendStream`, whose `write_chunk` repeats single writes. -/
structure QuinnStream (σ : Type u) (ε : Type v) extends QuicStream σ ε where
  writeChunk : σ → List UInt8 → Except ε Unit × σ
  writeChunk_repeats {state after : σ} {bytes : List UInt8} {result : Except ε Unit} : bytes ≠ [] →
    writeChunk state bytes = (result, after) → Repeats toSendStream state bytes result after
  writeChunk_empty {state after : σ} {result : Except ε Unit} : writeChunk state [] = (result, after) →
    received after = received state

inductive Implementation where
  | default
  | quinn
  | quion
deriving DecidableEq, Repr

variable {σ : Type u} {ε : Type v} {β : Type w} [Buf β]

namespace QuinnStream

/-- This avoids a copy when the buffer is already `Bytes`. -/
def writeBuf (stream : QuinnStream σ ε) (state : σ) (buf : β) : Outcome ε Nat × σ × β :=
  let size := (Buf.chunk buf).length
  let (chunk, buf) := Buf.copyToBytes buf size
  match stream.writeChunk state chunk with
  | (.error error, state) => (.err error, state, buf)
  | (.ok (), state) => (.ok size, state, buf)

end QuinnStream

namespace QuicStream

/-- Quion's `write_buf`. -/
def quionWriteBuf (stream : QuicStream σ ε) (state : σ) (buf : β) : Outcome ε Nat × σ × β :=
  match stream.write state (Buf.chunk buf) with
  | (.error error, state) => (.err error, state, buf)
  | (.ok size, state) => (.ok size, state, Buf.advance buf size)

end QuicStream

def Implementation.writeBuf (implementation : Implementation) (stream : QuinnStream σ ε) (state : σ)
    (buf : β) : Outcome ε Nat × σ × β :=
  match implementation with
  | .default => stream.toSendStream.writeBuf state buf
  | .quinn => stream.writeBuf state buf
  | .quion => stream.quionWriteBuf state buf

/-- The buffer has been advanced by exactly the bytes that the transport
accepted, and a successful call returns their number. -/
def AdvancedBySent (stream : SendStream σ ε) (state : σ) (buf : β) : Outcome ε Nat × σ × β → Prop
  | (.ok size, after, rest) => ∃ sent, stream.received after = stream.received state ++ sent ∧
      Buf.contents buf = sent ++ Buf.contents rest ∧ sent.length = size
  | (.err _, after, rest) => ∃ sent, stream.received after = stream.received state ++ sent ∧
      Buf.contents buf = sent ++ Buf.contents rest
  | (.panicked, _, _) => False

/-- The transport fails before it has accepted all of the bytes. -/
def FailsWithin (stream : SendStream σ ε) (state : σ) (bytes : List UInt8) : Prop :=
  ∃ error after, Repeats stream state bytes (.error error) after

section Repeats

variable {stream : SendStream σ ε} {state after : σ} {bytes : List UInt8} {result : Except ε Unit}

theorem Repeats.received_ok (repeats : Repeats stream state bytes result after) (completed : result = .ok ()) :
    stream.received after = stream.received state ++ bytes := by
  induction repeats with
  | accepted state => rw [List.append_nil]
  | failed => cases completed
  | more nonempty written _ ih =>
      obtain ⟨_, _, accepted⟩ := stream.write_ok nonempty written
      rw [ih completed, accepted, List.append_assoc, List.take_append_drop]

/-- A failure leaves a non-empty part of the bytes unsent. -/
theorem Repeats.received_error {error : ε} (repeats : Repeats stream state bytes result after)
    (failed : result = .error error) :
    ∃ sent unsent, bytes = sent ++ unsent ∧ unsent ≠ [] ∧
      stream.received after = stream.received state ++ sent := by
  induction repeats with
  | accepted state => cases failed
  | @failed _ _ bytes _ nonempty written =>
      refine ⟨[], bytes, rfl, nonempty, ?_⟩
      rw [stream.write_error nonempty written, List.append_nil]
  | @more _ _ _ bytes size _ nonempty written _ ih =>
      obtain ⟨_, _, accepted⟩ := stream.write_ok nonempty written
      obtain ⟨sent, unsent, split, remain, received⟩ := ih failed
      refine ⟨bytes.take size ++ sent, unsent, ?_, remain, ?_⟩
      · rw [List.append_assoc, ← split, List.take_append_drop]
      · rw [received, accepted, List.append_assoc]

theorem Repeats.unique {other : Except ε Unit} {last : σ} (repeats : Repeats stream state bytes result after)
    (again : Repeats stream state bytes other last) : result = other := by
  induction repeats with
  | accepted state =>
      cases again with
      | accepted => rfl
      | failed nonempty => exact absurd rfl nonempty
      | more nonempty => exact absurd rfl nonempty
  | failed nonempty written =>
      cases again with
      | accepted => exact absurd rfl nonempty
      | failed _ rewritten =>
          rw [written] at rewritten
          cases rewritten
          rfl
      | more _ rewritten =>
          rw [written] at rewritten
          cases rewritten
  | more nonempty written _ ih =>
      cases again with
      | accepted => exact absurd rfl nonempty
      | failed _ rewritten =>
          rw [written] at rewritten
          cases rewritten
      | more _ rewritten later =>
          rw [written] at rewritten
          cases rewritten
          exact ih later

end Repeats

section Write

variable {stream : QuicStream σ ε} {state after : σ} {bytes : List UInt8}

/-- What a write of any slice does, an empty one included. -/
theorem QuicStream.received_error {error : ε} (written : stream.write state bytes = (.error error, after)) :
    stream.received after = stream.received state := by
  by_cases empty : bytes = []
  · rw [empty] at written
    exact (stream.write_empty written).1
  · exact stream.write_error empty written

theorem QuicStream.received_ok {size : Nat} (written : stream.write state bytes = (.ok size, after)) :
    (size > 0 ∨ bytes = []) ∧ size ≤ bytes.length ∧
      stream.received after = stream.received state ++ bytes.take size := by
  by_cases empty : bytes = []
  · rw [empty] at written ⊢
    obtain ⟨received, none⟩ := stream.write_empty written
    rw [none size rfl]
    exact ⟨.inr rfl, le_rfl, by rw [received, List.take_zero, List.append_nil]⟩
  · obtain ⟨some, within, received⟩ := stream.write_ok empty written
    exact ⟨.inl some, within, received⟩

end Write

section Implementations

variable (stream : QuinnStream σ ε) (state : σ) (buf : β)

theorem advancedBySent_error {stream : SendStream σ ε} {state after : σ} {buf : β} {error : ε}
    (received : stream.received after = stream.received state) :
    AdvancedBySent stream state buf (.err error, after, buf) :=
  ⟨[], by rw [received, List.append_nil], rfl⟩

theorem advancedBySent_ok {stream : SendStream σ ε} {state after : σ} {buf : β} {size : Nat}
    (within : size ≤ (Buf.chunk buf).length)
    (received : stream.received after = stream.received state ++ (Buf.chunk buf).take size) :
    AdvancedBySent stream state buf (.ok size, after, Buf.advance buf size) := by
  refine ⟨_, received, (Buf.advance_split buf within).symm, ?_⟩
  rw [List.length_take, Nat.min_eq_left within]

theorem default_advancedBySent :
    AdvancedBySent stream.toSendStream state buf (stream.toSendStream.writeBuf state buf) := by
  cases written : stream.write state (Buf.chunk buf) with
  | mk result after =>
      rw [SendStream.writeBuf, written]
      cases result with
      | error error => exact advancedBySent_error (QuicStream.received_error written)
      | ok size =>
          obtain ⟨some, within, received⟩ := QuicStream.received_ok written
          dsimp only
          rw [if_neg (not_not_intro some), if_neg (not_not_intro within)]
          exact advancedBySent_ok within received

theorem quion_advancedBySent :
    AdvancedBySent stream.toSendStream state buf (stream.quionWriteBuf state buf) := by
  cases written : stream.write state (Buf.chunk buf) with
  | mk result after =>
      rw [QuicStream.quionWriteBuf, written]
      cases result with
      | error error => exact advancedBySent_error (QuicStream.received_error written)
      | ok size =>
          obtain ⟨_, within, received⟩ := QuicStream.received_ok written
          exact advancedBySent_ok within received

variable {stream state buf} in
theorem copied_chunk : (Buf.copyToBytes buf (Buf.chunk buf).length).1 = Buf.chunk buf := by
  rw [Buf.copyToBytes, Buf.take_contents buf le_rfl, List.take_length]

variable {stream state buf} in
theorem quinn_failed {after : σ} {error : ε}
    (written : stream.writeChunk state (Buf.chunk buf) = (.error error, after)) :
    stream.writeBuf state buf = (.err error, after, Buf.advance buf (Buf.chunk buf).length) := by
  rw [QuinnStream.writeBuf]
  dsimp only
  rw [copied_chunk, written]
  rfl

variable {stream state buf} in
theorem quinn_completed {after : σ} (written : stream.writeChunk state (Buf.chunk buf) = (.ok (), after)) :
    stream.writeBuf state buf =
      (.ok (Buf.chunk buf).length, after, Buf.advance buf (Buf.chunk buf).length) := by
  rw [QuinnStream.writeBuf]
  dsimp only
  rw [copied_chunk, written]
  rfl

theorem chunk_split : Buf.contents buf = Buf.chunk buf ++ Buf.contents (Buf.advance buf (Buf.chunk buf).length) := by
  have split := Buf.advance_split buf le_rfl
  rw [List.take_length] at split
  exact split.symm

/-- Quinn's implementation advances the buffer before it writes, so a failure
inside the chunk loses the bytes that were not accepted. -/
theorem quinn_advancedBySent :
    AdvancedBySent stream.toSendStream state buf (stream.writeBuf state buf) ↔
      ¬ (Buf.chunk buf ≠ [] ∧ FailsWithin stream.toSendStream state (Buf.chunk buf)) := by
  have split := chunk_split buf
  cases written : stream.writeChunk state (Buf.chunk buf) with
  | mk result after =>
      cases result with
      | error error =>
          rw [quinn_failed written]
          by_cases empty : Buf.chunk buf = []
          · refine iff_of_true ?_ (fun both => both.1 empty)
            refine ⟨Buf.chunk buf, ?_, split⟩
            rw [empty] at written ⊢
            rw [stream.writeChunk_empty written, List.append_nil]
          · have repeats := stream.writeChunk_repeats empty written
            obtain ⟨sent, unsent, parts, remain, received⟩ := repeats.received_error rfl
            refine iff_of_false ?_ (fun holds => holds ⟨empty, error, after, repeats⟩)
            intro advanced
            obtain ⟨counted, alike, left⟩ := advanced
            -- The buffer lost the whole chunk, the transport got less.
            rw [received] at alike
            have same := List.append_cancel_left alike
            rw [split, ← same] at left
            have lengths := congrArg List.length (List.append_cancel_right left)
            rw [parts, List.length_append] at lengths
            have some := List.length_pos_iff.mpr remain
            omega
      | ok value =>
          rw [quinn_completed written]
          by_cases empty : Buf.chunk buf = []
          · refine iff_of_true ?_ (fun both => both.1 empty)
            refine ⟨Buf.chunk buf, ?_, split, rfl⟩
            rw [empty] at written ⊢
            rw [stream.writeChunk_empty written, List.append_nil]
          · have repeats := stream.writeChunk_repeats empty written
            refine iff_of_true ⟨_, repeats.received_ok rfl, split, rfl⟩ ?_
            intro both
            obtain ⟨_, error, last, fails⟩ := both
            cases repeats.unique fails

/-- The implementations keep the unsent bytes in the buffer, except Quinn's
where the transport fails inside the current chunk. -/
theorem writeBuf_advanced_iff (implementation : Implementation) :
    AdvancedBySent stream.toSendStream state buf (implementation.writeBuf stream state buf) ↔
      ¬ (implementation = .quinn ∧ Buf.chunk buf ≠ [] ∧
        FailsWithin stream.toSendStream state (Buf.chunk buf)) := by
  cases implementation with
  | default =>
      refine iff_of_true (default_advancedBySent stream state buf) ?_
      intro both
      cases both.1
  | quion =>
      refine iff_of_true (quion_advancedBySent stream state buf) ?_
      intro both
      cases both.1
  | quinn =>
      refine (quinn_advancedBySent stream state buf).trans ?_
      rw [eq_self_iff_true, true_and]

end Implementations

/-- What the next writes do: accept at most so many bytes, or fail.  After the
script every write is accepted. -/
structure Script where
  steps : List (Option Nat)
  sent : List UInt8 := []
deriving DecidableEq, Repr

namespace Script

def write (script : Script) (buf : List UInt8) : Except Unit Nat × Script :=
  match script.steps with
  | [] => (.ok buf.length, { script with sent := script.sent ++ buf })
  | none :: steps => (.error (), { script with steps })
  | some most :: steps =>
      let size := min (most + 1) buf.length
      (.ok size, { steps, sent := script.sent ++ buf.take size })

def writeChunk (script : Script) (bytes : List UInt8) : Except Unit Unit × Script :=
  if _nonempty : bytes = [] then (.ok (), script)
  else
    match script.write bytes with
    | (.error error, script) => (.error error, script)
    | (.ok size, script) =>
        if _some : size = 0 then (.ok (), script) else writeChunk script (bytes.drop size)
termination_by bytes.length
decreasing_by
  have positive := List.length_pos_iff.mpr _nonempty
  rw [List.length_drop]
  omega

theorem write_cases (script : Script) (buf : List UInt8) :
    (∃ steps, script.write buf = (.error (), { script with steps })) ∨
    ∃ size steps, (buf ≠ [] → 0 < size) ∧ size ≤ buf.length ∧
      script.write buf = (.ok size, { steps, sent := script.sent ++ buf.take size }) := by
  obtain ⟨steps, sent⟩ := script
  cases steps with
  | nil =>
      refine .inr ⟨buf.length, [], List.length_pos_iff.mpr, le_rfl, ?_⟩
      rw [List.take_length]
      rfl
  | cons next steps =>
      cases next with
      | none => exact .inl ⟨steps, rfl⟩
      | some most =>
          refine .inr ⟨min (most + 1) buf.length, steps, ?_, Nat.min_le_right _ _, rfl⟩
          intro nonempty
          have some := List.length_pos_iff.mpr nonempty
          omega

theorem write_error {script after : Script} {buf : List UInt8} {error : Unit}
    (written : script.write buf = (.error error, after)) : after.sent = script.sent := by
  rcases write_cases script buf with ⟨steps, failed⟩ | ⟨size, steps, _, _, accepted⟩
  · rw [failed] at written
    cases written
    rfl
  · rw [accepted] at written
    cases written

theorem write_ok {script after : Script} {buf : List UInt8} {size : Nat}
    (written : script.write buf = (.ok size, after)) :
    (buf ≠ [] → 0 < size) ∧ size ≤ buf.length ∧ after.sent = script.sent ++ buf.take size := by
  rcases write_cases script buf with ⟨steps, failed⟩ | ⟨size, steps, some, within, accepted⟩
  · rw [failed] at written
    cases written
  · rw [accepted] at written
    cases written
    exact ⟨some, within, rfl⟩

end Script

/-- A transport that follows a script. -/
def scriptedWrites : QuicStream Script Unit where
  write := Script.write
  received := Script.sent
  write_error _ written := Script.write_error written
  write_ok nonempty written := by
    obtain ⟨some, within, received⟩ := Script.write_ok written
    exact ⟨some nonempty, within, received⟩
  write_empty := by
    intro script after result written
    cases result with
    | error error => exact ⟨Script.write_error written, nofun⟩
    | ok size =>
        obtain ⟨_, within, received⟩ := Script.write_ok written
        obtain rfl : size = 0 := Nat.le_zero.mp within
        refine ⟨by rw [received, List.take_zero, List.append_nil], ?_⟩
        intro other same
        cases same
        rfl

theorem Script.writeChunk_repeats (script : Script) {bytes : List UInt8} :
    Repeats scriptedWrites.toSendStream script bytes (script.writeChunk bytes).1 (script.writeChunk bytes).2 := by
  induction left : bytes.length using Nat.strong_induction_on generalizing script bytes with
  | h left ih =>
      subst left
      rw [writeChunk]
      by_cases empty : bytes = []
      · rw [dif_pos empty, empty]
        exact .accepted script
      · rw [dif_neg empty]
        cases written : script.write bytes with
        | mk result after =>
            cases result with
            | error error => exact .failed empty written
            | ok size =>
                obtain ⟨positive, _, _⟩ := Script.write_ok written
                have some := positive empty
                have shorter : (bytes.drop size).length < bytes.length := by
                  have remaining := List.length_pos_iff.mpr empty
                  rw [List.length_drop]
                  omega
                dsimp only
                rw [dif_neg (Nat.ne_of_gt some)]
                exact .more empty written (ih _ shorter after rfl)

def scripted : QuinnStream Script Unit where
  toQuicStream := scriptedWrites
  writeChunk := Script.writeChunk
  writeChunk_repeats := by
    intro script after bytes result _ written
    have repeats : Repeats scriptedWrites.toSendStream script bytes (script.writeChunk bytes).1
        (script.writeChunk bytes).2 := script.writeChunk_repeats
    rwa [written] at repeats
  writeChunk_empty := by
    intro script after result written
    rw [Script.writeChunk, dif_pos rfl] at written
    cases written
    rfl

def hello : List UInt8 := [0x68, 0x65, 0x6c, 0x6c, 0x6f]

/-- A transport that accepts two bytes of five and then fails leaves Quinn's
caller with an empty buffer. -/
theorem writeBuf_quinn_loses :
    Implementation.quinn.writeBuf scripted ⟨[some 1, none], []⟩ hello = (.err (), ⟨[], [0x68, 0x65]⟩, []) ∧
      ¬ AdvancedBySent scripted.toSendStream ⟨[some 1, none], []⟩ hello
        (Implementation.quinn.writeBuf scripted ⟨[some 1, none], []⟩ hello) := by
  have call : Implementation.quinn.writeBuf scripted ⟨[some 1, none], []⟩ hello =
      (.err (), ⟨[], [0x68, 0x65]⟩, []) := by
    decide +kernel
  refine ⟨call, ?_⟩
  rw [call]
  intro advanced
  obtain ⟨sent, received, split⟩ := advanced
  change [0x68, 0x65] = [] ++ sent at received
  change hello = sent ++ [] at split
  rw [← List.nil_append sent, ← received] at split
  cases split

/-- The same transport under the trait's own helper, with the bytes in two
chunks: three bytes stay in the buffer. -/
example : (scripted.writeAllBuf ⟨[some 0, some 0, none], []⟩
    (⟨[[0x68], [0x65, 0x6c, 0x6c, 0x6f]], by decide⟩ : Segments)).2.2.chunks = [[0x6c, 0x6c, 0x6f]] := by
  decide +kernel

end Webtrans.Streams
