import Webtrans.Streams.ReadHelpers

namespace Webtrans.Streams

open Webtrans.Data Stream'

/-! `RecvStream::read_chunk` and its maximum. -/

variable {σ : Type u} {ε : Type v} {memory : Memory} {stream : RecvStream σ ε} {state : σ}

/-- The buffer of a call: `BytesMut::with_capacity(max.min(8 * 1024))`. -/
def chunkBuffer (memory : Memory) (max : Nat) : BytesMut memory :=
  BytesMut.withCapacity (min max (8 * 1024)) ((Nat.min_le_right _ _).trans memory.page)

/-- Read the next chunk of data, up to the max size. -/
def RecvStream.readChunk (stream : RecvStream σ ε) (memory : Memory) (state : σ) (max : Nat) :
    Outcome ε (Option (List UInt8)) × σ :=
  match stream.readBuf state (chunkBuffer memory max) with
  | (.err error, state, _) => (.err error, state)
  | (.panicked, state, _) => (.panicked, state)
  | (.ok none, state, _) => (.ok none, state)
  | (.ok (some _), state, buf) => (.ok (some buf.bytes), state)

/-- At most `max` bytes are returned, they are the next ones, and all later
bytes stay in the stream. -/
def RespectsMax (stream : RecvStream σ ε) (state : σ) (max : Nat) :
    Outcome ε (Option (List UInt8)) × σ → Prop
  | (.ok (some bytes), after) =>
      bytes.length ≤ max ∧ stream.data state = (Seq.ofList bytes).append (stream.data after)
  | (.ok none, after) => stream.data after = stream.data state
  | (.err _, after) => stream.data after = stream.data state
  | (.panicked, after) => stream.data after = stream.data state

/-- A read into the room that an empty buffer of no capacity grows to brings
no byte. -/
def BringsNothing (stream : RecvStream σ ε) (memory : Memory) (state : σ) : Prop :=
  ∀ capacity bytes after, memory.reserve 0 0 64 = some capacity →
    stream.read state (min capacity (8 * 1024)) = (.ok (some bytes), after) → bytes = []

/-- The outcome of one read. -/
def chunkOf : Except ε (Option (List UInt8)) × σ → Outcome ε (Option (List UInt8)) × σ
  | (.error error, after) => (.err error, after)
  | (.ok found, after) => (.ok found, after)

/-- With room to write, the chunk is what one read brings. -/
theorem readChunk_eq {max room : Nat} {writable : BytesMut memory}
    (chunk : (chunkBuffer memory max).chunkMut = some (room, writable)) :
    stream.readChunk memory state max = chunkOf (stream.read state (min room (8 * 1024))) := by
  obtain ⟨same, width, some⟩ := BytesMut.chunkMut_spec chunk
  have empty : writable.bytes = [] := same
  have none : (chunkBuffer memory max).bytes.length = 0 := rfl
  have positive : 0 < min room (8 * 1024) := by omega
  have chunk : BufMut.chunkMut (chunkBuffer memory max) = Option.some (room, writable) := chunk
  rw [RecvStream.readChunk, RecvStream.readBuf, chunk]
  dsimp only
  rw [if_neg (Nat.ne_of_gt positive)]
  cases read : stream.read state (min room (8 * 1024)) with
  | mk result after =>
      cases result with
      | error error => rfl
      | ok found =>
          cases found with
          | none => rfl
          | some dst =>
              obtain ⟨fits, _⟩ := stream.read_some positive read
              have spare : writable.bytes.length + dst.length ≤ writable.capacity := by
                rw [empty, List.length_nil]
                omega
              obtain ⟨filled, put⟩ := BytesMut.putSlice_spare spare
              have whole := BytesMut.putSlice_spec put
              have put : BufMut.putSlice writable dst = Option.some filled := put
              rw [empty, List.nil_append] at whole
              dsimp only
              rw [if_neg (not_not_intro fits), put]
              dsimp only
              rw [whole]
              rfl

/-- A buffer with spare capacity offers all of it, and no more. -/
theorem chunkMut_chunkBuffer {max : Nat} (some : 0 < max) :
    (chunkBuffer memory max).chunkMut = Option.some (min max (8 * 1024), chunkBuffer memory max) := by
  have spare : (chunkBuffer memory max).capacity ≠ (chunkBuffer memory max).bytes.length := by
    change min max (8 * 1024) ≠ 0
    omega
  rw [BytesMut.chunkMut, if_neg spare]
  rfl

theorem respectsMax_read {max room : Nat} (positive : 0 < room) :
    RespectsMax stream state max (chunkOf (stream.read state room)) ↔
      ∀ bytes after, stream.read state room = (.ok (some bytes), after) → bytes.length ≤ max := by
  cases read : stream.read state room with
  | mk result after =>
      cases result with
      | error error => exact iff_of_true (stream.read_error positive read) nofun
      | ok found =>
          cases found with
          | none => exact iff_of_true (stream.read_none positive read) nofun
          | some bytes =>
              obtain ⟨_, split⟩ := stream.read_some positive read
              constructor
              · intro respects other last same
                cases same
                exact respects.1
              · intro within
                exact ⟨within bytes after rfl, split⟩

theorem readChunk_positive {max : Nat} (some : 0 < max) :
    RespectsMax stream state max (stream.readChunk memory state max) := by
  have positive : 0 < min (min max (8 * 1024)) (8 * 1024) := by omega
  rw [readChunk_eq (chunkMut_chunkBuffer some), respectsMax_read positive]
  intro bytes after read
  obtain ⟨fits, _⟩ := stream.read_some positive read
  omega

/-- With a maximum of 0 the buffer is full from the start, and grows. -/
theorem readChunk_zero :
    RespectsMax stream state 0 (stream.readChunk memory state 0) ↔ BringsNothing stream memory state := by
  have full : (chunkBuffer memory 0).capacity = (chunkBuffer memory 0).bytes.length := rfl
  have short : ¬ (chunkBuffer memory 0).bytes.length + 64 ≤ (chunkBuffer memory 0).capacity := by
    rw [full]
    omega
  cases grown : memory.reserve 0 0 64 with
  | none =>
      have refused : BufMut.chunkMut (chunkBuffer memory 0) = none := by
        change (chunkBuffer memory 0).chunkMut = none
        rw [BytesMut.chunkMut, if_pos full, BytesMut.reserve_refused short grown]
      rw [RecvStream.readChunk, RecvStream.readBuf, refused]
      refine iff_of_true rfl ?_
      intro capacity bytes after reserved
      rw [grown] at reserved
      cases reserved
  | some capacity =>
      obtain ⟨writable, reserved, same, width⟩ := BytesMut.reserve_grown short grown
      have empty : writable.bytes.length = 0 := congrArg List.length same
      have chunk : (chunkBuffer memory 0).chunkMut = some (capacity, writable) := by
        rw [BytesMut.chunkMut, if_pos full, reserved]
        dsimp only
        rw [width, empty]
        rfl
      have positive : 0 < min capacity (8 * 1024) := by
        obtain ⟨enough, _⟩ := memory.reserve_spec grown
        omega
      rw [readChunk_eq chunk, respectsMax_read positive]
      constructor
      · intro within other bytes after again read
        rw [grown] at again
        cases again
        exact List.eq_nil_of_length_eq_zero (Nat.le_zero.mp (within bytes after read))
      · intro silent bytes after read
        rw [silent capacity bytes after grown read]
        exact le_rfl

/-- A chunk respects its maximum, unless that is 0 and the stream has a byte to
give. -/
theorem readChunk_respects_iff (stream : RecvStream σ ε) (memory : Memory) (state : σ) (max : Nat) :
    RespectsMax stream state max (stream.readChunk memory state max) ↔
      max ≠ 0 ∨ BringsNothing stream memory state := by
  rcases Nat.eq_zero_or_pos max with rfl | some
  · rw [readChunk_zero]
    simp
  · exact iff_of_true (readChunk_positive some) (.inl (Nat.ne_of_gt some))

/-- A maximum of 0 takes five bytes. -/
theorem readChunk_zero_takes :
    generous.readChunk doubling [0x68, 0x65, 0x6c, 0x6c, 0x6f] 0 =
        (.ok (some [0x68, 0x65, 0x6c, 0x6c, 0x6f]), []) ∧
      ¬ RespectsMax generous [0x68, 0x65, 0x6c, 0x6c, 0x6f] 0
        (generous.readChunk doubling [0x68, 0x65, 0x6c, 0x6c, 0x6f] 0) := by
  have taken : generous.readChunk doubling [0x68, 0x65, 0x6c, 0x6c, 0x6f] 0 =
      (.ok (some [0x68, 0x65, 0x6c, 0x6c, 0x6f]), []) := by
    decide +kernel
  refine ⟨taken, ?_⟩
  rw [taken]
  intro respects
  exact absurd respects.1 (by decide)

end Webtrans.Streams
