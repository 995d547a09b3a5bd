import Webtrans.Data.Buf

namespace Webtrans.Streams

open Webtrans.Data

/-! The send side of `webtrans-trait/src/lib.rs`: what its default methods make
of an arbitrary `write`. -/

/-- How a call ends; a failed assertion panics. -/
inductive Outcome (ε : Type u) (α : Type v) where
  | ok (value : α)
  | err (error : ε)
  | panicked
deriving DecidableEq, Repr

/-- An outgoing stream.  A write of a non-empty slice fails with nothing
accepted, or accepts a non-empty front part of the slice. -/
structure SendStream (σ : Type u) (ε : Type v) where
  write : σ → List UInt8 → Except ε Nat × σ
  -- What the stream has accepted so far.
  received : σ → List UInt8
  write_error {state after : σ} {buf : List UInt8} {error : ε} : buf ≠ [] →
    write state buf = (.error error, after) → received after = received state
  write_ok {state after : σ} {buf : List UInt8} {size : Nat} : buf ≠ [] →
    write state buf = (.ok size, after) →
      0 < size ∧ size ≤ buf.length ∧ received after = received state ++ buf.take size

namespace SendStream

variable {σ : Type u} {ε : Type v} {β : Type w} [Buf β] (stream : SendStream σ ε)

/-- Write the given buffer to the stream, advancing the internal position. -/
def writeBuf (state : σ) (buf : β) : Outcome ε Nat × σ × β :=
  let chunk := Buf.chunk buf
  match stream.write state chunk with
  | (.error error, state) => (.err error, state, buf)
  | (.ok size, state) =>
      if ¬ (size > 0 ∨ chunk = []) then (.panicked, state, buf)
      else if ¬ size ≤ chunk.length then (.panicked, state, buf)
      else (.ok size, state, Buf.advance buf size)

/-- The loop of `write_all` from a position on. -/
def writeAllFrom (state : σ) (buf : List UInt8) (pos : Nat) : Outcome ε Unit × σ :=
  if pos < buf.length then
    match stream.write state (buf.drop pos) with
    | (.error error, state) => (.err error, state)
    | (.ok written, state) =>
        if ¬ written > 0 then (.panicked, state)
        else if ¬ written ≤ buf.length - pos then (.panicked, state)
        else writeAllFrom state buf (pos + written)
  else (.ok (), state)
termination_by buf.length - pos

def writeAll (state : σ) (buf : List UInt8) : Outcome ε Unit × σ :=
  stream.writeAllFrom state buf 0

variable {stream} in
theorem writeBuf_shrinks {state after : σ} {buf rest : β} {size : Nat}
    (written : stream.writeBuf state buf = (.ok size, after, rest)) (some : 0 < size) :
    (Buf.contents rest).length < (Buf.contents buf).length := by
  rw [writeBuf] at written
  split at written
  · cases written
  · split at written
    · cases written
    · split at written
      · cases written
      · rename_i within
        cases written
        exact Buf.advance_length (not_not.mp within) some

def writeAllBuf (state : σ) (buf : β) : Outcome ε Unit × σ × β :=
  if Buf.hasRemaining buf then
    match _written : stream.writeBuf state buf with
    | (.err error, state, buf) => (.err error, state, buf)
    | (.panicked, state, buf) => (.panicked, state, buf)
    | (.ok written, state, buf) =>
        if _some : ¬ written > 0 then (.panicked, state, buf)
        else writeAllBuf state buf
  else (.ok (), state, buf)
termination_by (Buf.contents buf).length
decreasing_by exact writeBuf_shrinks _written (not_not.mp _some)

/-- Write the entire chunk; `Bytes` is a buffer of one chunk. -/
def writeChunk (state : σ) (chunk : List UInt8) : Outcome ε Unit × σ :=
  let (outcome, state, _) := stream.writeAllBuf state chunk
  (outcome, state)

variable {stream} {state after : σ} {buf rest : β}

/-- On a buffer with bytes left a write moves a non-empty part of the chunk
from the buffer to the stream, or fails and moves nothing. -/
theorem writeBuf_cases (more : Buf.hasRemaining buf = true) :
    (∃ error after, stream.writeBuf state buf = (.err error, after, buf) ∧
      stream.received after = stream.received state) ∨
    ∃ size after, 0 < size ∧ size ≤ (Buf.chunk buf).length ∧
      stream.writeBuf state buf = (.ok size, after, Buf.advance buf size) ∧
      stream.received after = stream.received state ++ (Buf.chunk buf).take size := by
  have nonempty := Buf.chunk_nonempty more
  cases written : stream.write state (Buf.chunk buf) with
  | mk result after =>
      cases result with
      | error error =>
          refine .inl ⟨error, after, ?_, stream.write_error nonempty written⟩
          rw [writeBuf, written]
      | ok size =>
          obtain ⟨some, within, accepted⟩ := stream.write_ok nonempty written
          refine .inr ⟨size, after, some, within, ?_, accepted⟩
          rw [writeBuf, written]
          dsimp only
          rw [if_neg (not_not_intro (.inl some)), if_neg (not_not_intro within)]

/-- What a write helper may do with its input: send all of it, or send a front
part and fail. -/
def Sends (stream : SendStream σ ε) (state after : σ) (input : List UInt8) : Outcome ε Unit → Prop
  | .ok _ => stream.received after = stream.received state ++ input
  | .err _ => ∃ sent rest, input = sent ++ rest ∧ stream.received after = stream.received state ++ sent
  | .panicked => False

theorem Sends.cons {middle : σ} {first input : List UInt8} {outcome : Outcome ε Unit}
    (sends : stream.Sends middle after input outcome)
    (accepted : stream.received middle = stream.received state ++ first) :
    stream.Sends state after (first ++ input) outcome := by
  cases outcome with
  | ok value =>
      change stream.received after = _
      rw [show stream.received after = _ from sends, accepted, List.append_assoc]
  | err error =>
      obtain ⟨sent, rest, rfl, received⟩ := sends
      refine ⟨first ++ sent, rest, (List.append_assoc ..).symm, ?_⟩
      rw [received, accepted, List.append_assoc]
  | panicked => exact sends

theorem writeAllFrom_sends (state : σ) (buf : List UInt8) (pos : Nat) :
    stream.Sends state (stream.writeAllFrom state buf pos).2 (buf.drop pos)
      (stream.writeAllFrom state buf pos).1 := by
  induction left : buf.length - pos using Nat.strong_induction_on generalizing state pos with
  | h left ih =>
      subst left
      rw [writeAllFrom]
      by_cases more : pos < buf.length
      · have nonempty : buf.drop pos ≠ [] := by
          rw [ne_eq, List.drop_eq_nil_iff]
          omega
        rw [if_pos more]
        cases written : stream.write state (buf.drop pos) with
        | mk result middle =>
            cases result with
            | error error =>
                refine ⟨[], buf.drop pos, rfl, ?_⟩
                rw [stream.write_error nonempty written, List.append_nil]
            | ok size =>
                obtain ⟨some, within, accepted⟩ := stream.write_ok nonempty written
                rw [List.length_drop] at within
                dsimp only
                rw [if_neg (not_not_intro some), if_neg (not_not_intro within)]
                have later := (ih _ (by omega) middle (pos + size) rfl).cons accepted
                rwa [← List.drop_drop, List.take_append_drop] at later
      · rw [if_neg more, List.drop_eq_nil_of_le (Nat.le_of_not_lt more)]
        exact (List.append_nil _).symm

theorem writeAllBuf_eq (state : σ) (buf : β) :
    stream.writeAllBuf state buf =
      if Buf.hasRemaining buf then
        match stream.writeBuf state buf with
        | (.err error, state, buf) => (.err error, state, buf)
        | (.panicked, state, buf) => (.panicked, state, buf)
        | (.ok written, state, buf) =>
            if ¬ written > 0 then (.panicked, state, buf) else stream.writeAllBuf state buf
      else (.ok (), state, buf) := by
  rw [writeAllBuf]
  split
  case isTrue =>
    split
    next written => rw [written]
    next written => rw [written]
    next size after rest written =>
      rw [written]
      rfl
  case isFalse => rfl

/-- The invariant of the loop at its end: what the stream got and what the
buffer still holds make up the input. -/
theorem writeAllBuf_split (state : σ) (buf : β) :
    ∃ sent outcome after rest, stream.writeAllBuf state buf = (outcome, after, rest) ∧
      stream.received after = stream.received state ++ sent ∧
      Buf.contents buf = sent ++ Buf.contents rest ∧ outcome ≠ .panicked ∧
      (outcome = .ok () → Buf.contents rest = []) := by
  induction left : (Buf.contents buf).length using Nat.strong_induction_on generalizing state buf with
  | h left ih =>
      subst left
      rw [writeAllBuf_eq]
      by_cases more : Buf.hasRemaining buf = true
      · rw [if_pos more]
        rcases writeBuf_cases more with ⟨error, after, written, received⟩ |
          ⟨size, middle, some, within, written, received⟩
        · rw [written]
          refine ⟨[], _, _, _, rfl, ?_, rfl, nofun, nofun⟩
          rw [received, List.append_nil]
        · rw [written]
          dsimp only
          rw [if_neg (not_not_intro some)]
          obtain ⟨sent, outcome, after, rest, ended, later, split, sound, drained⟩ :=
            ih _ (Buf.advance_length within some) middle (Buf.advance buf size) rfl
          refine ⟨(Buf.chunk buf).take size ++ sent, outcome, after, rest, ended, ?_, ?_, sound, drained⟩
          · rw [later, received, List.append_assoc]
          · rw [List.append_assoc, ← split, Buf.advance_split buf within]
      · rw [if_neg more]
        have empty : Buf.contents buf = [] := by
          rw [Buf.hasRemaining_iff, not_not] at more
          exact more
        refine ⟨[], _, _, _, rfl, (List.append_nil _).symm, rfl, nofun, fun _ => empty⟩

theorem writeChunk_sends (state : σ) (bytes : List UInt8) :
    stream.Sends state (stream.writeChunk state bytes).2 bytes (stream.writeChunk state bytes).1 := by
  obtain ⟨sent, outcome, after, rest, ended, received, split, sound, drained⟩ :=
    @writeAllBuf_split _ _ _ _ stream state bytes
  rw [writeChunk, ended]
  change bytes = sent ++ rest at split
  cases outcome with
  | ok value =>
      have empty : rest = [] := drained rfl
      rw [split, empty, List.append_nil]
      exact received
  | err error => exact ⟨sent, rest, split, received⟩
  | panicked => exact sound rfl

/-- The write helpers send everything once and in order.  They are total, they
never panic, and where they fail the stream has a front part of the input, with
the rest in the buffer of `write_all_buf`. -/
theorem helpers_send (stream : SendStream σ ε) :
    (∀ state bytes, stream.Sends state (stream.writeAll state bytes).2 bytes (stream.writeAll state bytes).1) ∧
    (∀ state bytes, stream.Sends state (stream.writeChunk state bytes).2 bytes (stream.writeChunk state bytes).1) ∧
    ∀ state (buf : β), ∃ sent outcome after rest, stream.writeAllBuf state buf = (outcome, after, rest) ∧
      stream.received after = stream.received state ++ sent ∧
      Buf.contents buf = sent ++ Buf.contents rest ∧ outcome ≠ .panicked ∧
      (outcome = .ok () → Buf.contents rest = []) :=
  ⟨fun state bytes => writeAllFrom_sends state bytes 0, writeChunk_sends, writeAllBuf_split⟩

end SendStream

end Webtrans.Streams
