import Mathlib.Algebra.GroupWithZero.Nat
import Mathlib.Data.List.Basic
import Mathlib.Data.List.Infix

namespace Webtrans.Data

/-! Buffers that are read and written through a cursor (`bytes::Buf` and
`bytes::BufMut`).

A buffer may keep its bytes in any number of chunks, of which only the first is
at hand.  What the operations mean is told by `contents` alone. -/

/-- A buffer to read from; `contents` are its unread bytes. -/
class Buf (β : Type u) where
  contents : β → List UInt8
  chunk : β → List UInt8
  advance : β → Nat → β
  chunk_front (buf : β) : chunk buf <+: contents buf
  chunk_empty (buf : β) : chunk buf = [] → contents buf = []
  contents_advance (buf : β) {count : Nat} :
    count ≤ (contents buf).length → contents (advance buf count) = (contents buf).drop count

namespace Buf

variable {β : Type u} [Buf β]

def remaining (buf : β) : Nat :=
  (contents buf).length

def hasRemaining (buf : β) : Bool :=
  decide (0 < remaining buf)

/-- The next `count` bytes and the buffer behind them. -/
def copyToBytes (buf : β) (count : Nat) : List UInt8 × β :=
  ((contents buf).take count, advance buf count)

theorem chunk_length_le (buf : β) : (chunk buf).length ≤ (contents buf).length :=
  (chunk_front buf).length_le

theorem take_contents (buf : β) {count : Nat} (inside : count ≤ (chunk buf).length) :
    (contents buf).take count = (chunk buf).take count := by
  obtain ⟨behind, split⟩ := chunk_front buf
  rw [← split, List.take_append_of_le_length inside]

theorem hasRemaining_iff (buf : β) : hasRemaining buf = true ↔ contents buf ≠ [] := by
  rw [hasRemaining, decide_eq_true_iff, remaining]
  exact List.length_pos_iff

theorem chunk_nonempty {buf : β} (more : hasRemaining buf = true) : chunk buf ≠ [] := by
  intro empty
  exact (hasRemaining_iff buf).mp more (chunk_empty buf empty)

def getU8 (buf : β) : UInt8 × β :=
  ((chunk buf).headD 0, advance buf 1)

theorem getU8_cons {buf : β} {first : UInt8} {rest : List UInt8} (split : contents buf = first :: rest) :
    ∃ after, getU8 buf = (first, after) ∧ contents after = rest := by
  have byte : (chunk buf).headD 0 = first := by
    cases front : chunk buf with
    | nil =>
        rw [chunk_empty buf front] at split
        cases split
    | cons byte bytes =>
        obtain ⟨behind, whole⟩ := chunk_front buf
        rw [front, split] at whole
        cases whole
        rfl
  refine ⟨advance buf 1, by rw [getU8, byte], ?_⟩
  rw [contents_advance buf (by simp [split]), split, List.drop_one, List.tail_cons]

theorem copyToBytes_length_le (buf : β) (count : Nat) : (copyToBytes buf count).1.length ≤ count :=
  List.length_take_le count (contents buf)

theorem contents_copyToBytes (buf : β) {count : Nat} (enough : count ≤ remaining buf) :
    contents (copyToBytes buf count).2 = (contents buf).drop count :=
  contents_advance buf enough

/-- Advancing over a part of the chunk takes exactly these bytes. -/
theorem advance_split (buf : β) {count : Nat} (inside : count ≤ (chunk buf).length) :
    (chunk buf).take count ++ contents (advance buf count) = contents buf := by
  rw [contents_advance buf (inside.trans (chunk_length_le buf)), ← take_contents buf inside,
    List.take_append_drop]

theorem advance_length {buf : β} {count : Nat} (inside : count ≤ (chunk buf).length) (some : 0 < count) :
    (contents (advance buf count)).length < (contents buf).length := by
  have fits := chunk_length_le buf
  rw [contents_advance buf (inside.trans fits), List.length_drop]
  omega

/-- What a reader takes from a buffer, a piece of the chunk at a time. -/
inductive Consumes : β → List UInt8 → β → Prop where
  | done (buf : β) : Consumes buf [] buf
  | piece {buf after : β} {bytes : List UInt8} (count : Nat) (inside : count ≤ (chunk buf).length) :
      Consumes (advance buf count) bytes after → Consumes buf ((chunk buf).take count ++ bytes) after

theorem Consumes.split {buf after : β} {bytes : List UInt8} (consumed : Consumes buf bytes after) :
    bytes ++ contents after = contents buf := by
  induction consumed with
  | done => rfl
  | piece count inside _ ih => rw [List.append_assoc, ih, advance_split _ inside]

/-- A buffer can be read to its end. -/
theorem consumes_all (buf : β) : ∃ after, Consumes buf (contents buf) after ∧ contents after = [] := by
  induction size : (contents buf).length using Nat.strong_induction_on generalizing buf with
  | h size ih =>
      subst size
      by_cases empty : contents buf = []
      · rw [empty]
        exact ⟨buf, .done buf, empty⟩
      · have some : 0 < (chunk buf).length :=
          List.length_pos_iff.mpr fun exhausted => empty (chunk_empty buf exhausted)
        have shorter := advance_length (le_refl (chunk buf).length) some
        obtain ⟨after, consumed, exhausted⟩ := ih _ shorter (advance buf (chunk buf).length) rfl
        have whole := Consumes.piece (chunk buf).length le_rfl consumed
        rw [advance_split buf le_rfl] at whole
        exact ⟨after, whole, exhausted⟩

end Buf

/-- A view of the first `limit` bytes of a buffer. -/
structure Take (β : Type u) where
  inner : β
  limit : Nat

namespace Take

variable {β : Type u} [Buf β]

open Buf

instance : Buf (Take β) where
  contents view := (contents view.inner).take view.limit
  chunk view := (chunk view.inner).take view.limit
  advance view count := ⟨advance view.inner count, view.limit - count⟩
  chunk_front view := (chunk_front view.inner).take view.limit
  chunk_empty view := by
    intro empty
    rcases List.take_eq_nil_iff.mp empty with none | exhausted
    · rw [none, List.take_zero]
    · rw [chunk_empty view.inner exhausted, List.take_nil]
  contents_advance view count := by
    intro within
    have inside : count ≤ (contents view.inner).length := by
      rw [List.length_take] at within
      omega
    rw [contents_advance view.inner inside, List.drop_take]

/-- The bytes of the buffer that the view does not reach. -/
def behind (view : Take β) : List UInt8 :=
  (contents view.inner).drop view.limit

theorem contents_inner (view : Take β) : contents view.inner = contents view ++ view.behind :=
  (List.take_append_drop view.limit (contents view.inner)).symm

theorem behind_advance (view : Take β) {count : Nat} (inside : count ≤ (chunk view).length) :
    (advance view count).behind = view.behind := by
  have limited : count ≤ view.limit ∧ count ≤ (chunk view.inner).length := by
    have width : (chunk view).length = min view.limit (chunk view.inner).length := List.length_take
    omega
  have within := limited.2.trans (chunk_length_le view.inner)
  change (contents (advance view.inner count)).drop (view.limit - count) = view.behind
  rw [contents_advance view.inner within, List.drop_drop, Nat.add_sub_of_le limited.1]
  rfl

/-- However the view is read, the reader stays inside it. -/
theorem behind_consumes {view after : Take β} {bytes : List UInt8} (consumed : Consumes view bytes after) :
    after.behind = view.behind := by
  induction consumed with
  | done => rfl
  | piece count inside _ ih => rw [ih, behind_advance _ inside]

end Take

/-- One contiguous run of bytes: `Bytes` and `&[u8]`. -/
instance : Buf (List UInt8) where
  contents bytes := bytes
  chunk bytes := bytes
  advance bytes count := bytes.drop count
  chunk_front bytes := List.prefix_refl bytes
  chunk_empty _ empty := empty
  contents_advance _ _ _ := rfl

/-- Bytes in several chunks, none of them empty. -/
structure Segments where
  chunks : List (List UInt8)
  nonempty : ∀ chunk ∈ chunks, chunk ≠ []

namespace Segments

def dropChunks : List (List UInt8) → Nat → List (List UInt8)
  | [], _ => []
  | chunk :: chunks, count =>
      if count < chunk.length then chunk.drop count :: chunks
      else dropChunks chunks (count - chunk.length)

theorem flatten_dropChunks (chunks : List (List UInt8)) (count : Nat) :
    (dropChunks chunks count).flatten = chunks.flatten.drop count := by
  induction chunks generalizing count with
  | nil => simp [dropChunks]
  | cons chunk chunks ih =>
      rw [dropChunks]
      split
      case isTrue inside =>
        rw [List.flatten_cons, List.flatten_cons, List.drop_append_of_le_length inside.le]
      case isFalse outside =>
        rw [ih, List.flatten_cons, List.drop_append, List.drop_eq_nil_of_le (Nat.le_of_not_lt outside),
          List.nil_append]

theorem dropChunks_nonempty {chunks : List (List UInt8)} (nonempty : ∀ chunk ∈ chunks, chunk ≠ [])
    (count : Nat) : ∀ chunk ∈ dropChunks chunks count, chunk ≠ [] := by
  induction chunks generalizing count with
  | nil => exact nonempty
  | cons first chunks ih =>
      obtain ⟨_, others⟩ := List.forall_mem_cons.mp nonempty
      rw [dropChunks]
      split
      case isTrue inside =>
        refine List.forall_mem_cons.mpr ⟨?_, others⟩
        intro empty
        have exhausted := List.drop_eq_nil_iff.mp empty
        omega
      case isFalse => exact ih others _

instance : Buf Segments where
  contents buf := buf.chunks.flatten
  chunk buf := buf.chunks.headD []
  advance buf count := ⟨dropChunks buf.chunks count, dropChunks_nonempty buf.nonempty count⟩
  chunk_front buf := by
    cases buf.chunks with
    | nil => exact List.nil_prefix
    | cons chunk chunks => exact List.prefix_append chunk chunks.flatten
  chunk_empty buf := by
    obtain ⟨chunks, nonempty⟩ := buf
    cases chunks with
    | nil => exact fun _ => rfl
    | cons chunk chunks => exact fun empty => absurd empty (nonempty chunk List.mem_cons_self)
  contents_advance buf count _ := flatten_dropChunks buf.chunks count

end Segments

/-- A buffer to append to; `contents` are the bytes written so far.  An
operation is `none` where the buffer cannot allocate, which is a panic. -/
class BufMut (β : Type u) where
  contents : β → List UInt8
  remainingMut : β → Nat
  chunkMut : β → Option (Nat × β)
  putSlice : β → List UInt8 → Option β
  chunkMut_spec {buf after : β} {room : Nat} : chunkMut buf = some (room, after) →
    contents after = contents buf ∧ remainingMut after = remainingMut buf ∧
      room ≤ remainingMut buf ∧ (room = 0 → remainingMut buf = 0)
  putSlice_spec {buf after : β} {bytes : List UInt8} : bytes.length ≤ remainingMut buf →
    putSlice buf bytes = some after → contents after = contents buf ++ bytes ∧
      remainingMut after + bytes.length = remainingMut buf
  -- What fits into the chunk at hand needs no allocation.
  chunk_put {buf after : β} {room : Nat} {bytes : List UInt8} : chunkMut buf = some (room, after) →
    bytes.length ≤ room → ∃ filled, putSlice after bytes = some filled

namespace BufMut

variable {β : Type u} [BufMut β]

def hasRemainingMut (buf : β) : Bool :=
  decide (0 < remainingMut buf)

end BufMut

/-- Room in several pieces, none of them empty, that does not grow. -/
structure Slots where
  bytes : List UInt8
  rooms : List Nat
  positive : ∀ room ∈ rooms, 0 < room

namespace Slots

def useRooms : List Nat → Nat → List Nat
  | [], _ => []
  | room :: rooms, count =>
      if count < room then (room - count) :: rooms
      else useRooms rooms (count - room)

theorem sum_useRooms {rooms : List Nat} {count : Nat} (inside : count ≤ rooms.sum) :
    (useRooms rooms count).sum + count = rooms.sum := by
  induction rooms generalizing count with
  | nil =>
      have none : count = 0 := Nat.le_zero.mp inside
      rw [none]
      rfl
  | cons room rooms ih =>
      rw [List.sum_cons] at inside ⊢
      rw [useRooms]
      split
      case isTrue =>
        rw [List.sum_cons]
        omega
      case isFalse =>
        have rest := @ih (count - room) (by omega)
        omega

theorem useRooms_positive {rooms : List Nat} (positive : ∀ room ∈ rooms, 0 < room) (count : Nat) :
    ∀ room ∈ useRooms rooms count, 0 < room := by
  induction rooms generalizing count with
  | nil => exact positive
  | cons first rooms ih =>
      obtain ⟨_, others⟩ := List.forall_mem_cons.mp positive
      rw [useRooms]
      split
      case isTrue => exact List.forall_mem_cons.mpr ⟨by omega, others⟩
      case isFalse => exact ih others _

instance : BufMut Slots where
  contents buf := buf.bytes
  remainingMut buf := buf.rooms.sum
  chunkMut buf := some (buf.rooms.headD 0, buf)
  putSlice buf added :=
    some ⟨buf.bytes ++ added, useRooms buf.rooms added.length, useRooms_positive buf.positive _⟩
  chunkMut_spec := by
    intro buf after room chunk
    obtain ⟨bytes, rooms, positive⟩ := buf
    cases chunk
    cases rooms with
    | nil => exact ⟨rfl, rfl, le_rfl, fun _ => rfl⟩
    | cons room rooms =>
        have some := positive room List.mem_cons_self
        refine ⟨rfl, rfl, ?_, ?_⟩
        · rw [List.headD_cons, List.sum_cons]
          omega
        · intro none
          rw [List.headD_cons] at none
          omega
  putSlice_spec := by
    intro buf after bytes within put
    cases put
    exact ⟨rfl, sum_useRooms within⟩
  chunk_put _ _ := ⟨_, rfl⟩

end Slots

/-- What a program may allocate: how far `usize` reaches, the largest
allocation, and the capacity that a full buffer of some length and capacity
grows to. -/
structure Memory where
  usizeMax : Nat
  isizeMax : Nat
  reserve : Nat → Nat → Nat → Option Nat
  below : isizeMax < usizeMax
  page : 8 * 1024 ≤ isizeMax
  reserve_spec {length capacity additional grown : Nat} : reserve length capacity additional = some grown →
    length + additional ≤ grown ∧ grown ≤ isizeMax

/-- A full buffer of any length up to the bound can grow by another chunk. -/
def Memory.Grants (memory : Memory) (bound : Nat) : Prop :=
  ∀ length, length ≤ bound → memory.reserve length length 64 ≠ none

/-- A growable buffer. -/
structure BytesMut (memory : Memory) where
  bytes : List UInt8
  capacity : Nat
  fits : bytes.length ≤ capacity
  bounded : capacity ≤ memory.isizeMax

namespace BytesMut

variable {memory : Memory}

def withCapacity (capacity : Nat) (bounded : capacity ≤ memory.isizeMax) : BytesMut memory where
  bytes := []
  capacity := capacity
  fits := Nat.zero_le _
  bounded := bounded

def new : BytesMut memory :=
  withCapacity 0 (Nat.zero_le _)

/-- `reserve`: room for `additional` more bytes. -/
def reserve (buf : BytesMut memory) (additional : Nat) : Option (BytesMut memory) :=
  if buf.bytes.length + additional ≤ buf.capacity then some buf
  else
    match grown : memory.reserve buf.bytes.length buf.capacity additional with
    | none => none
    | some capacity => some
        { bytes := buf.bytes
          capacity
          fits := (Nat.le_add_right _ _).trans (memory.reserve_spec grown).1
          bounded := (memory.reserve_spec grown).2 }

theorem reserve_eq {buf after : BytesMut memory} {additional : Nat}
    (reserved : buf.reserve additional = some after) :
    after.bytes = buf.bytes ∧ buf.bytes.length + additional ≤ after.capacity := by
  rw [reserve] at reserved
  split at reserved
  case isTrue enough =>
    cases reserved
    exact ⟨rfl, enough⟩
  case isFalse =>
    split at reserved
    · cases reserved
    · rename_i capacity grown
      cases reserved
      exact ⟨rfl, (memory.reserve_spec grown).1⟩

theorem reserve_refused {buf : BytesMut memory} {additional : Nat}
    (short : ¬ buf.bytes.length + additional ≤ buf.capacity)
    (refused : memory.reserve buf.bytes.length buf.capacity additional = none) :
    buf.reserve additional = none := by
  rw [reserve, if_neg short]
  split
  · rfl
  · rename_i grown
    rw [refused] at grown
    cases grown

theorem reserve_grown {buf : BytesMut memory} {additional capacity : Nat}
    (short : ¬ buf.bytes.length + additional ≤ buf.capacity)
    (grown : memory.reserve buf.bytes.length buf.capacity additional = some capacity) :
    ∃ after, buf.reserve additional = some after ∧ after.bytes = buf.bytes ∧ after.capacity = capacity := by
  rw [reserve, if_neg short]
  split
  · rename_i refused
    rw [grown] at refused
    cases refused
  · rename_i other again
    rw [grown] at again
    cases again
    exact ⟨_, rfl, rfl, rfl⟩

/-- The spare capacity; a full buffer first reserves 64 bytes. -/
def chunkMut (buf : BytesMut memory) : Option (Nat × BytesMut memory) :=
  if buf.capacity = buf.bytes.length then
    match buf.reserve 64 with
    | none => none
    | some buf => some (buf.capacity - buf.bytes.length, buf)
  else some (buf.capacity - buf.bytes.length, buf)

def putSlice (buf : BytesMut memory) (added : List UInt8) : Option (BytesMut memory) :=
  match reserved : buf.reserve added.length with
  | none => none
  | some after => some
      { bytes := after.bytes ++ added
        capacity := after.capacity
        fits := by
          obtain ⟨same, room⟩ := reserve_eq reserved
          rw [List.length_append, same]
          exact room
        bounded := after.bounded }

def remainingMut (buf : BytesMut memory) : Nat :=
  memory.usizeMax - buf.bytes.length

theorem length_lt (buf : BytesMut memory) : buf.bytes.length < memory.usizeMax :=
  lt_of_le_of_lt (buf.fits.trans buf.bounded) memory.below

theorem chunkMut_spec {buf after : BytesMut memory} {room : Nat} (chunk : buf.chunkMut = some (room, after)) :
    after.bytes = buf.bytes ∧ room + buf.bytes.length = after.capacity ∧ 0 < room := by
  have fits := buf.fits
  rw [chunkMut] at chunk
  split at chunk
  case isTrue full =>
    cases reserved : buf.reserve 64 with
    | none =>
        rw [reserved] at chunk
        cases chunk
    | some grown =>
        rw [reserved] at chunk
        cases chunk
        obtain ⟨same, enough⟩ := reserve_eq reserved
        rw [same]
        exact ⟨rfl, by omega, by omega⟩
  case isFalse spare =>
    cases chunk
    exact ⟨rfl, by omega, by omega⟩

theorem chunkMut_none {buf : BytesMut memory} (refused : buf.chunkMut = none) :
    memory.reserve buf.bytes.length buf.bytes.length 64 = none := by
  rw [chunkMut] at refused
  split at refused
  case isTrue full =>
    cases grown : memory.reserve buf.bytes.length buf.capacity 64 with
    | none => rwa [full] at grown
    | some capacity =>
        obtain ⟨after, reserved, _⟩ := reserve_grown (by omega) grown
        rw [reserved] at refused
        cases refused
  case isFalse => cases refused

theorem putSlice_spec {buf after : BytesMut memory} {added : List UInt8}
    (put : buf.putSlice added = some after) : after.bytes = buf.bytes ++ added := by
  rw [putSlice] at put
  split at put
  · cases put
  · rename_i grown reserved
    cases put
    exact congrArg (· ++ added) (reserve_eq reserved).1

/-- With spare capacity no allocation is needed. -/
theorem putSlice_spare {buf : BytesMut memory} {added : List UInt8}
    (room : buf.bytes.length + added.length ≤ buf.capacity) : ∃ after, buf.putSlice added = some after := by
  have reserved : buf.reserve added.length = some buf := if_pos room
  rw [putSlice]
  split
  · rename_i failed
    rw [reserved] at failed
    cases failed
  · exact ⟨_, rfl⟩

instance : BufMut (BytesMut memory) where
  contents buf := buf.bytes
  remainingMut := remainingMut
  chunkMut := chunkMut
  putSlice := putSlice
  chunkMut_spec := by
    intro buf after room chunk
    obtain ⟨same, width, some⟩ := chunkMut_spec chunk
    have bound := after.bounded
    have below := memory.below
    have fits := length_lt buf
    refine ⟨same, by rw [remainingMut, remainingMut, same], ?_, ?_⟩
    · rw [remainingMut]
      omega
    · intro none
      omega
  putSlice_spec := by
    intro buf after bytes within put
    have appended := putSlice_spec put
    refine ⟨appended, ?_⟩
    have lengths := congrArg List.length appended
    rw [List.length_append] at lengths
    have fits := length_lt buf
    simp only [remainingMut] at within ⊢
    omega
  chunk_put := by
    intro buf after room bytes chunk inside
    obtain ⟨same, width, _⟩ := chunkMut_spec chunk
    refine putSlice_spare ?_
    rw [same]
    omega

end BytesMut

end Webtrans.Data
