import Mathlib.Data.Seq.Basic
import Webtrans.Streams.WriteHelpers

namespace Webtrans.Streams

open Webtrans.Data Stream'

/-! The receive side of `webtrans-trait/src/lib.rs`: what its default methods
make of an arbitrary `read`. -/

/-- An incoming stream.  A read takes the next bytes of its data, at most as
many as the destination holds, or nothing.  The data may go on for ever. -/
structure RecvStream (σ : Type u) (ε : Type v) where
  -- A read into a destination of some size: the bytes it has put there.
  read : σ → Nat → Except ε (Option (List UInt8)) × σ
  data : σ → Seq UInt8
  read_some {state after : σ} {room : Nat} {bytes : List UInt8} : 0 < room →
    read state room = (.ok (some bytes), after) →
      bytes.length ≤ room ∧ data state = (Seq.ofList bytes).append (data after)
  read_none {state after : σ} {room : Nat} : 0 < room → read state room = (.ok none, after) →
    data after = data state
  read_error {state after : σ} {room : Nat} {error : ε} : 0 < room →
    read state room = (.error error, after) → data after = data state

/-- A stream whose reads get on: each brings a byte, fails, or finds the end. -/
structure ProgressingStream (σ : Type u) (ε : Type v) extends RecvStream σ ε where
  read_progress {state after : σ} {room : Nat} {bytes : List UInt8} : 0 < room →
    read state room = (.ok (some bytes), after) → bytes ≠ []
  read_end {state after : σ} {room : Nat} : 0 < room → read state room = (.ok none, after) →
    data state = Seq.nil

variable {σ : Type u} {ε : Type v} {β : Type w} [BufMut β]

namespace RecvStream

/-- Read some data into the provided buffer, through a temporary one. -/
def readBuf (stream : RecvStream σ ε) (state : σ) (buf : β) : Outcome ε (Option Nat) × σ × β :=
  match BufMut.chunkMut buf with
  | none => (.panicked, state, buf)
  | some (room, buf) =>
      let capacity := min room (8 * 1024)
      if capacity = 0 then (.ok (some 0), state, buf)
      else
        match stream.read state capacity with
        | (.error error, state) => (.err error, state, buf)
        | (.ok none, state) => (.ok none, state, buf)
        | (.ok (some dst), state) =>
            if ¬ dst.length ≤ capacity then (.panicked, state, buf)
            else
              match BufMut.putSlice buf dst with
              | none => (.panicked, state, buf)
              | some buf => (.ok (some dst.length), state, buf)

/-- What `read_buf` does with a buffer that has room: the ways it ends. -/
inductive ReadBuf (stream : RecvStream σ ε) (state : σ) (buf : β) :
    Outcome ε (Option Nat) × σ × β → Prop where
  | some {after : σ} {rest : β} {bytes : List UInt8} {room : Nat} : 0 < room →
      stream.read state room = (.ok (some bytes), after) →
      BufMut.contents rest = BufMut.contents buf ++ bytes →
      BufMut.remainingMut rest + bytes.length = BufMut.remainingMut buf →
      ReadBuf stream state buf (.ok (some bytes.length), after, rest)
  | none {after : σ} {rest : β} {room : Nat} : 0 < room → stream.read state room = (.ok none, after) →
      BufMut.contents rest = BufMut.contents buf → ReadBuf stream state buf (.ok none, after, rest)
  | err {after : σ} {rest : β} {room : Nat} {error : ε} : 0 < room →
      stream.read state room = (.error error, after) → BufMut.contents rest = BufMut.contents buf →
      ReadBuf stream state buf (.err error, after, rest)
  | panicked : BufMut.chunkMut buf = none → ReadBuf stream state buf (.panicked, state, buf)

theorem readBuf_cases (stream : RecvStream σ ε) (state : σ) {buf : β}
    (more : BufMut.hasRemainingMut buf = true) : ReadBuf stream state buf (stream.readBuf state buf) := by
  rw [BufMut.hasRemainingMut, decide_eq_true_iff] at more
  rw [readBuf]
  cases chunk : BufMut.chunkMut buf with
  | none => exact .panicked chunk
  | some found =>
      obtain ⟨room, writable⟩ := found
      obtain ⟨same, still, within, full⟩ := BufMut.chunkMut_spec chunk
      have positive : 0 < min room (8 * 1024) := by
        rcases Nat.eq_zero_or_pos room with none | some
        · have exhausted := full none
          omega
        · omega
      dsimp only
      rw [if_neg (Nat.ne_of_gt positive)]
      cases read : stream.read state (min room (8 * 1024)) with
      | mk result after =>
          cases result with
          | error error => exact .err positive read same
          | ok found =>
              cases found with
              | none => exact .none positive read same
              | some dst =>
                  obtain ⟨fits, _⟩ := stream.read_some positive read
                  dsimp only
                  rw [if_neg (not_not_intro fits)]
                  obtain ⟨filled, put⟩ := BufMut.chunk_put chunk (fits.trans (Nat.min_le_left _ _))
                  have inside : dst.length ≤ BufMut.remainingMut writable := by omega
                  obtain ⟨appended, left⟩ := BufMut.putSlice_spec inside put
                  rw [put]
                  exact .some positive read (by rw [appended, same]) (by rw [left, still])

/-- One read after another that brings bytes, and all they have brought. -/
inductive Takes (stream : RecvStream σ ε) : σ → List UInt8 → σ → Prop where
  | nil (state : σ) : Takes stream state [] state
  | cons {state middle after : σ} {room : Nat} {bytes more : List UInt8} (positive : 0 < room)
      (read : stream.read state room = (.ok (some bytes), middle)) (later : Takes stream middle more after) :
      Takes stream state (bytes ++ more) after

theorem Takes.split {stream : RecvStream σ ε} {state after : σ} {taken : List UInt8}
    (takes : Takes stream state taken after) :
    stream.data state = (Seq.ofList taken).append (stream.data after) := by
  induction takes with
  | nil => rw [Seq.ofList_nil, Seq.nil_append]
  | cons positive read _ ih => rw [(stream.read_some positive read).2, ih, Seq.ofList_append, Seq.append_assoc]

/-- The read that ends such a series has failed. -/
def Fails (stream : RecvStream σ ε) (state : σ) (taken : List UInt8) (error : ε) (after : σ) : Prop :=
  ∃ middle room, Takes stream state taken middle ∧ 0 < room ∧ stream.read middle room = (.error error, after)

theorem Fails.split {stream : RecvStream σ ε} {state after : σ} {taken : List UInt8} {error : ε}
    (fails : Fails stream state taken error after) :
    stream.data state = (Seq.ofList taken).append (stream.data after) := by
  obtain ⟨middle, room, takes, positive, read⟩ := fails
  rw [stream.read_error positive read]
  exact takes.split

theorem Fails.cons {stream : RecvStream σ ε} {state middle after : σ} {room : Nat}
    {bytes taken : List UInt8} {error : ε}
    (positive : 0 < room) (read : stream.read state room = (.ok (some bytes), middle))
    (fails : Fails stream middle taken error after) : Fails stream state (bytes ++ taken) error after := by
  obtain ⟨last, final, takes, some, failed⟩ := fails
  exact ⟨last, final, .cons positive read takes, some, failed⟩

end RecvStream

namespace ProgressingStream

variable (stream : ProgressingStream σ ε)

variable {stream} in
theorem readBuf_shrinks {state after : σ} {buf rest : β} {size : Nat} (more : BufMut.hasRemainingMut buf = true)
    (read : stream.readBuf state buf = (.ok (some size), after, rest)) :
    BufMut.remainingMut rest < BufMut.remainingMut buf := by
  have cases := stream.readBuf_cases state more
  rw [read] at cases
  cases cases with
  | some positive read _ left =>
      have some := List.length_pos_iff.mpr (stream.read_progress positive read)
      omega

/-- The loop of `read_all_buf`, with the bytes counted so far. -/
def readAllFrom (state : σ) (buf : β) (size : Nat) : Outcome ε Nat × σ × β :=
  if _more : BufMut.hasRemainingMut buf then
    match _read : stream.readBuf state buf with
    | (.err error, state, buf) => (.err error, state, buf)
    | (.panicked, state, buf) => (.panicked, state, buf)
    | (.ok (some n), state, buf) => readAllFrom state buf (size + n)
    | (.ok none, state, buf) => (.ok size, state, buf)
  else (.ok size, state, buf)
termination_by BufMut.remainingMut buf
decreasing_by exact readBuf_shrinks _more _read

/-- Helper to keep reading until the buffer is full. -/
def readAllBuf (state : σ) (buf : β) : Outcome ε Nat × σ × β :=
  stream.readAllFrom state buf 0

/-- Helper to keep reading until the stream is closed. -/
def readAll (memory : Memory) (state : σ) : Outcome ε (List UInt8) × σ :=
  match stream.readAllBuf state (BytesMut.new : BytesMut memory) with
  | (.err error, state, _) => (.err error, state)
  | (.panicked, state, _) => (.panicked, state)
  | (.ok _, state, buf) => (.ok buf.bytes, state)

theorem readAllFrom_eq (state : σ) (buf : β) (size : Nat) :
    stream.readAllFrom state buf size =
      if BufMut.hasRemainingMut buf then
        match stream.readBuf state buf with
        | (.err error, state, buf) => (.err error, state, buf)
        | (.panicked, state, buf) => (.panicked, state, buf)
        | (.ok (some n), state, buf) => stream.readAllFrom state buf (size + n)
        | (.ok none, state, buf) => (.ok size, state, buf)
      else (.ok size, state, buf) := by
  rw [readAllFrom]
  split
  case isTrue => split <;> rename_i read <;> rw [read]
  case isFalse => rfl

/-- What the loop leaves behind: the bytes appended are those taken from the
stream, and a successful end means a full buffer or the end of the data. -/
def Fills (state : σ) (buf : β) (size : Nat) : Outcome ε Nat × σ × β → Prop
  | (.ok total, after, rest) => ∃ taken, BufMut.contents rest = BufMut.contents buf ++ taken ∧
      stream.data state = (Seq.ofList taken).append (stream.data after) ∧ total = size + taken.length ∧
      taken.length ≤ BufMut.remainingMut buf ∧
      (taken.length = BufMut.remainingMut buf ∨ stream.data after = Seq.nil)
  | (.err error, after, rest) => ∃ taken, BufMut.contents rest = BufMut.contents buf ++ taken ∧
      stream.Fails state taken error after
  | (.panicked, after, rest) => ∃ taken, BufMut.contents rest = BufMut.contents buf ++ taken ∧
      stream.Takes state taken after ∧ BufMut.chunkMut rest = none

variable {stream}

theorem Fills.cons {state middle : σ} {buf next : β} {size room : Nat} {bytes : List UInt8}
    {ended : Outcome ε Nat × σ × β} (fills : stream.Fills middle next (size + bytes.length) ended)
    (appended : BufMut.contents next = BufMut.contents buf ++ bytes)
    (left : BufMut.remainingMut next + bytes.length = BufMut.remainingMut buf)
    (positive : 0 < room) (read : stream.read state room = (.ok (some bytes), middle)) :
    stream.Fills state buf size ended := by
  obtain ⟨outcome, after, rest⟩ := ended
  cases outcome with
  | ok total =>
      obtain ⟨more, contents, split, counted, within, full⟩ := fills
      refine ⟨bytes ++ more, by rw [contents, appended, List.append_assoc], ?_, ?_, ?_, ?_⟩
      · rw [(stream.read_some positive read).2, split, Seq.ofList_append, Seq.append_assoc]
      · rw [counted, List.length_append]
        omega
      · rw [List.length_append]
        omega
      · rw [List.length_append]
        rcases full with full | ended
        · exact .inl (by omega)
        · exact .inr ended
  | err error =>
      obtain ⟨more, contents, fails⟩ := fills
      exact ⟨bytes ++ more, by rw [contents, appended, List.append_assoc], fails.cons positive read⟩
  | panicked =>
      obtain ⟨more, contents, takes, refused⟩ := fills
      exact ⟨bytes ++ more, by rw [contents, appended, List.append_assoc], .cons positive read takes, refused⟩

theorem readAllFrom_fills (state : σ) (buf : β) (size : Nat) :
    stream.Fills state buf size (stream.readAllFrom state buf size) := by
  induction left : BufMut.remainingMut buf using Nat.strong_induction_on generalizing state buf size with
  | h left ih =>
      subst left
      rw [readAllFrom_eq]
      by_cases more : BufMut.hasRemainingMut buf = true
      · rw [if_pos more]
        have cases := stream.readBuf_cases state more
        generalize read : stream.readBuf state buf = result at cases
        cases cases with
        | @some after rest bytes _ positive taken appended remaining =>
            have later := ih _ (readBuf_shrinks more read) after rest (size + bytes.length) rfl
            exact later.cons appended remaining positive taken
        | none positive taken same =>
            have ended := stream.read_end positive taken
            have still := stream.read_none positive taken
            refine ⟨[], by rw [same, List.append_nil], ?_, rfl, Nat.zero_le _, .inr (still.trans ended)⟩
            rw [still, Seq.ofList_nil, Seq.nil_append]
        | err positive taken same =>
            exact ⟨[], by rw [same, List.append_nil], state, _, .nil state, positive, taken⟩
        | panicked refused => exact ⟨[], (List.append_nil _).symm, .nil state, refused⟩
      · rw [if_neg more]
        have full : BufMut.remainingMut buf = 0 := by
          rw [BufMut.hasRemainingMut, decide_eq_true_iff] at more
          omega
        refine ⟨[], (List.append_nil _).symm, ?_, rfl, Nat.zero_le _, .inl full.symm⟩
        rw [Seq.ofList_nil, Seq.nil_append]

theorem take_of_split {data behind : Seq UInt8} {taken : List UInt8} {count : Nat}
    (split : data = (Seq.ofList taken).append behind) (within : taken.length ≤ count)
    (full : taken.length = count ∨ behind = Seq.nil) :
    data.take count = taken ∧ data.drop count = behind := by
  subst split
  induction taken generalizing count with
  | nil =>
      rw [Seq.ofList_nil, Seq.nil_append]
      rcases full with rfl | rfl
      · exact ⟨rfl, rfl⟩
      · exact ⟨Seq.take_nil, Seq.drop_nil⟩
  | cons byte taken ih =>
      rw [Seq.ofList_cons, Seq.cons_append]
      cases count with
      | zero => simp at within
      | succ count =>
          rw [List.length_cons] at within full
          obtain ⟨front, back⟩ := @ih count (by omega) (by simpa using full)
          rw [Seq.take_succ_cons, Seq.drop_succ_cons, front, back]
          exact ⟨rfl, rfl⟩

theorem take_ofList (data : List UInt8) (count : Nat) : (Seq.ofList data).take count = data.take count := by
  have split : Seq.ofList data = (Seq.ofList (data.take count)).append (Seq.ofList (data.drop count)) := by
    rw [← Seq.ofList_append, List.take_append_drop]
  refine (take_of_split split (List.length_take_le _ _) ?_).1
  rcases Nat.le_total count data.length with inside | past
  · exact .inl (List.length_take_of_le inside)
  · rw [List.drop_eq_nil_of_le past]
    exact .inr Seq.ofList_nil

/-- `read_all_buf` has appended the next bytes of the data, as many as fit or
as there are, or those it took before a read failed or before the buffer could
not grow. -/
def AppendsAll (stream : ProgressingStream σ ε) (state : σ) (buf : β) : Outcome ε Nat × σ × β → Prop
  | (.ok total, after, rest) =>
      BufMut.contents rest = BufMut.contents buf ++ (stream.data state).take (BufMut.remainingMut buf) ∧
      stream.data after = (stream.data state).drop (BufMut.remainingMut buf) ∧
      total = ((stream.data state).take (BufMut.remainingMut buf)).length ∧
      ∀ left : List UInt8, stream.data state = Seq.ofList left →
        total = min (BufMut.remainingMut buf) left.length
  | (.err error, after, rest) => ∃ taken, BufMut.contents rest = BufMut.contents buf ++ taken ∧
      stream.data state = (Seq.ofList taken).append (stream.data after) ∧ stream.Fails state taken error after
  | (.panicked, after, rest) => ∃ taken, BufMut.contents rest = BufMut.contents buf ++ taken ∧
      stream.data state = (Seq.ofList taken).append (stream.data after) ∧ stream.Takes state taken after ∧
      BufMut.chunkMut rest = none

/-- `read_all` has returned all data, or a read failed behind what it took, or
the buffer that was full of it could not grow. -/
def CollectsAll (stream : ProgressingStream σ ε) (memory : Memory) (state : σ) :
    Outcome ε (List UInt8) × σ → Prop
  | (.ok bytes, after) => stream.data state = Seq.ofList bytes ∧ stream.data after = Seq.nil
  | (.err error, after) => ∃ taken, stream.data state = (Seq.ofList taken).append (stream.data after) ∧
      stream.Fails state taken error after
  | (.panicked, after) => ∃ taken, stream.data state = (Seq.ofList taken).append (stream.data after) ∧
      stream.Takes state taken after ∧ memory.reserve taken.length taken.length 64 = none

theorem readAllBuf_appends (state : σ) (buf : β) : AppendsAll stream state buf (stream.readAllBuf state buf) := by
  have fills : stream.Fills state buf 0 (stream.readAllFrom state buf 0) := readAllFrom_fills state buf 0
  rw [readAllBuf]
  generalize stream.readAllFrom state buf 0 = ended at fills
  obtain ⟨outcome, after, rest⟩ := ended
  cases outcome with
  | ok total =>
      obtain ⟨taken, contents, split, counted, within, full⟩ := fills
      obtain ⟨front, back⟩ := take_of_split split within full
      rw [Nat.zero_add] at counted
      refine ⟨by rw [contents, front], back.symm, by rw [counted, front], ?_⟩
      intro left finite
      rw [finite, take_ofList] at front
      rw [counted, ← front, List.length_take]
  | err error =>
      obtain ⟨taken, contents, fails⟩ := fills
      exact ⟨taken, contents, fails.split, fails⟩
  | panicked =>
      obtain ⟨taken, contents, takes, refused⟩ := fills
      exact ⟨taken, contents, takes.split, takes, refused⟩

/-- A growable buffer is full only beyond what it can hold, so the loop stops at
the end of the data. -/
theorem readAll_collects (memory : Memory) (state : σ) :
    CollectsAll stream memory state (stream.readAll memory state) := by
  have fills : stream.Fills state (BytesMut.new : BytesMut memory) 0 (stream.readAllFrom state BytesMut.new 0) :=
    readAllFrom_fills state BytesMut.new 0
  rw [readAll, readAllBuf]
  generalize stream.readAllFrom state (BytesMut.new : BytesMut memory) 0 = ended at fills
  obtain ⟨outcome, after, rest⟩ := ended
  cases outcome with
  | ok total =>
      obtain ⟨taken, contents, split, _, _, full⟩ := fills
      change rest.bytes = [] ++ taken at contents
      rw [List.nil_append] at contents
      have bound := rest.length_lt
      rw [contents] at bound
      rcases full with full | ended
      · change taken.length = memory.usizeMax - 0 at full
        omega
      · rw [ended, Seq.append_nil] at split
        rw [← contents] at split
        exact ⟨split, ended⟩
  | err error =>
      obtain ⟨taken, _, fails⟩ := fills
      exact ⟨taken, fails.split, fails⟩
  | panicked =>
      obtain ⟨taken, contents, takes, refused⟩ := fills
      change rest.bytes = [] ++ taken at contents
      have none := BytesMut.chunkMut_none refused
      rw [contents, List.nil_append] at none
      exact ⟨taken, takes.split, takes, none⟩

theorem length_le_of_split {data taken : List UInt8} {behind : Seq UInt8}
    (split : Seq.ofList data = (Seq.ofList taken).append behind) : taken.length ≤ data.length := by
  have front := (take_of_split split le_rfl (.inl rfl)).1
  rw [take_ofList] at front
  have lengths := congrArg List.length front
  rw [List.length_take] at lengths
  omega

/-- With memory for its data, a stream that does not fail is read to its end. -/
theorem readAll_returns {memory : Memory} {state : σ} {data : List UInt8}
    (finite : stream.data state = Seq.ofList data)
    (grants : memory.Grants data.length) (sound : ∀ taken error after, ¬ stream.Fails state taken error after) :
    ∃ after, stream.readAll memory state = (.ok data, after) ∧ stream.data after = Seq.nil := by
  have collects : CollectsAll stream memory state (stream.readAll memory state) := readAll_collects memory state
  generalize stream.readAll memory state = ended at collects
  obtain ⟨outcome, after⟩ := ended
  cases outcome with
  | ok bytes =>
      obtain ⟨all, ended⟩ := collects
      have same : bytes = data := Seq.ofList_injective (all.symm.trans finite)
      exact ⟨after, by rw [same], ended⟩
  | err error =>
      obtain ⟨taken, _, fails⟩ := collects
      exact absurd fails (sound taken error after)
  | panicked =>
      obtain ⟨taken, split, _, refused⟩ := collects
      exact absurd refused (grants _ (length_le_of_split (finite.symm.trans split)))

/-- The read helpers lose and duplicate nothing.  They are total, an error is
that of a read behind the bytes they took, only a full buffer that cannot grow
makes them panic, and otherwise `read_all` returns all the data. -/
theorem helpers_read (stream : ProgressingStream σ ε) :
    (∀ state (buf : β), AppendsAll stream state buf (stream.readAllBuf state buf)) ∧
      (∀ memory state, CollectsAll stream memory state (stream.readAll memory state)) ∧
      ∀ (memory : Memory) (state : σ) (data : List UInt8), stream.data state = Seq.ofList data →
        memory.Grants data.length → (∀ taken error after, ¬ stream.Fails state taken error after) →
        ∃ after, stream.readAll memory state = (.ok data, after) ∧ stream.data after = Seq.nil :=
  ⟨readAllBuf_appends, readAll_collects, fun _ _ _ finite grants sound => readAll_returns finite grants sound⟩

end ProgressingStream

/-- Buffers that grow to twice their capacity, in an address space of 64 bits. -/
def doubling : Memory where
  usizeMax := 2 ^ 64 - 1
  isizeMax := 2 ^ 63 - 1
  reserve length capacity additional :=
    let grown := max (length + additional) (2 * capacity)
    if grown ≤ 2 ^ 63 - 1 then some grown else none
  below := by decide
  page := by decide
  reserve_spec := by
    intro length capacity additional grown reserved
    dsimp only at reserved
    split at reserved
    · rename_i bounded
      cases reserved
      exact ⟨Nat.le_max_left _ _, bounded⟩
    · cases reserved

/-- A stream that hands over as much of its data as fits. -/
def generous : RecvStream (List UInt8) Unit where
  read data room :=
    if data = [] then (.ok none, data) else (.ok (some (data.take room)), data.drop room)
  data := Seq.ofList
  read_some := by
    intro data after room bytes _ read
    split at read
    · cases read
    · cases read
      refine ⟨List.length_take_le _ _, ?_⟩
      rw [← Seq.ofList_append, List.take_append_drop]
  read_none := by
    intro data after room _ read
    split at read <;> cases read
    rfl
  read_error := by
    intro data after room error _ read
    split at read <;> cases read

namespace ProgressingStream

def greedy : ProgressingStream (List UInt8) Unit where
  toRecvStream := generous
  read_progress := by
    intro data after room bytes positive read
    change (if data = [] then (.ok none, data) else (.ok (some (data.take room)), data.drop room)) =
      (Except.ok (some bytes), after) at read
    split at read
    · cases read
    · rename_i some
      cases read
      simpa [List.take_eq_nil_iff, Nat.ne_of_gt positive] using some
  read_end := by
    intro data after room _ read
    change (if data = [] then (.ok none, data) else (.ok (some (data.take room)), data.drop room)) =
      (Except.ok none, after) at read
    split at read
    · rename_i none
      rw [none]
      exact Seq.ofList_nil
    · cases read

theorem helpers_read_hello :
    AppendsAll greedy [0x68, 0x65, 0x6c, 0x6c, 0x6f] (⟨[], [2, 1], by decide⟩ : Slots)
        (greedy.readAllBuf [0x68, 0x65, 0x6c, 0x6c, 0x6f] (⟨[], [2, 1], by decide⟩ : Slots)) ∧
      ∃ after, greedy.readAll doubling [0x68, 0x65, 0x6c, 0x6c, 0x6f] =
        (.ok [0x68, 0x65, 0x6c, 0x6c, 0x6f], after) ∧
        greedy.data after = Seq.nil := by
  obtain ⟨appends, _, returns⟩ := @helpers_read _ _ Slots _ greedy
  refine ⟨appends _ _, returns doubling _ [0x68, 0x65, 0x6c, 0x6c, 0x6f] rfl (fun length small => ?_) ?_⟩
  · have small : length ≤ 5 := small
    have bounded : max (length + 64) (2 * length) ≤ 2 ^ 63 - 1 := by omega
    change (if max (length + 64) (2 * length) ≤ 2 ^ 63 - 1 then
      some (max (length + 64) (2 * length)) else none) ≠ none
    rw [if_pos bounded]
    exact Option.some_ne_none _
  · rintro taken error after ⟨middle, room, _, _, failed⟩
    change (if middle = [] then (.ok none, middle) else (.ok (some (middle.take room)), middle.drop room)) =
      (Except.error error, after) at failed
    split at failed <;> cases failed

end ProgressingStream

end Webtrans.Streams
