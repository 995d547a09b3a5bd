import Webtrans.Data.Bytes
import Webtrans.Data.ByteStream
import Mathlib.Tactic.Convert
import Mathlib.Tactic.SplitIfs
import Mathlib.Tactic.Ring

namespace Webtrans.Proto

open Webtrans.Data

/-! QUIC variable-length integers (`webtrans-proto/src/varint.rs`). -/

/-- An integer less than 2^62.  The bound is a field, so the `unreachable!`
arms of `size` and `encode` have no counterpart here. -/
structure VarInt where
  intoInner : Nat
  bound : intoInner < 2 ^ 62
deriving DecidableEq, Repr

namespace VarInt

@[ext] theorem ext {left right : VarInt} (same : left.intoInner = right.intoInner) :
    left = right := by
  cases left; cases right; cases same; rfl

def max : VarInt := ⟨2 ^ 62 - 1, by decide⟩

/-- The largest encoded value length. -/
def maxSize : Nat := 8

/-- Succeeds if `x` < 2^62. -/
def fromU64 (x : Nat) : Option VarInt :=
  if bound : x < 2 ^ 62 then some ⟨x, bound⟩ else none

def fromU32 (x : UInt32) : VarInt :=
  ⟨x.toNat, Nat.lt_trans x.toNat_lt (by decide)⟩

/-- The number of bytes needed to encode this value. -/
def size (x : VarInt) : Nat :=
  if x.intoInner < 2 ^ 6 then 1
  else if x.intoInner < 2 ^ 14 then 2
  else if x.intoInner < 2 ^ 30 then 4
  else 8

def encode (x : VarInt) : List UInt8 :=
  if x.intoInner < 2 ^ 6 then [UInt8.ofNat x.intoInner]
  else if x.intoInner < 2 ^ 14 then beBytes 2 (0b01 <<< 14 ||| x.intoInner)
  else if x.intoInner < 2 ^ 30 then beBytes 4 (0b10 <<< 30 ||| x.intoInner)
  else beBytes 8 (0b11 <<< 62 ||| x.intoInner)

end VarInt

/-- A varint decode reached the end before all bytes were available. -/
inductive VarIntUnexpectedEnd where
  | unexpectedEnd
deriving DecidableEq, Repr

namespace VarInt

theorem masked_lt (first : UInt8) : (first &&& 0b00111111).toNat < 2 ^ 6 := by
  rw [UInt8.toNat_and]
  exact Nat.and_lt_two_pow _ (by decide)

theorem buffer_lt_pow (first : UInt8) (tail : List UInt8) :
    beNat ((first &&& 0b00111111) :: tail) < 64 * 256 ^ tail.length := by
  have high := masked_lt first
  have low := beNat_lt tail
  have scaled := Nat.mul_le_mul_right (256 ^ tail.length) (Nat.succ_le_of_lt high)
  simp only [beNat, Nat.succ_mul, Nat.reducePow] at *
  omega

theorem buffer_lt (first : UInt8) {tail : List UInt8} (short : tail.length ≤ 7) :
    beNat ((first &&& 0b00111111) :: tail) < 2 ^ 62 := by
  have bound := buffer_lt_pow first tail
  have width : 256 ^ tail.length ≤ 256 ^ 7 := Nat.pow_le_pow_right (by decide) short
  omega

/-- `from_be_bytes` of the decode buffer, whose first byte has lost its tag. -/
def fromBuffer (first : UInt8) (tail : List UInt8) (short : tail.length ≤ 7) : VarInt :=
  ⟨beNat ((first &&& 0b00111111) :: tail), buffer_lt first short⟩

/-- Decode a QUIC varint from an in-memory buffer. -/
def decode : Parser VarIntUnexpectedEnd VarInt
  | [] => .error .unexpectedEnd
  | first :: r =>
      let tag := first >>> 6
      if tag = 0b00 then .ok (fromBuffer first [] (by simp), r)
      else if tag = 0b01 then
        if r.length < 1 then .error .unexpectedEnd
        else .ok (fromBuffer first (r.take 1) (by simp), r.drop 1)
      else if tag = 0b10 then
        if r.length < 3 then .error .unexpectedEnd
        else .ok (fromBuffer first (r.take 3) (by simp), r.drop 3)
      else
        if r.length < 7 then .error .unexpectedEnd
        else .ok (fromBuffer first (r.take 7) (by simp), r.drop 7)

/-- The bytes that follow a first byte: `1 << tag` in all. -/
def following (first : UInt8) : Nat :=
  2 ^ (first >>> 6).toNat - 1

theorem tag_toNat (first : UInt8) : (first >>> 6).toNat = first.toNat / 64 := by
  rw [UInt8.toNat_shiftRight]
  exact Nat.shiftRight_eq_div_pow _ _

theorem tag_cases (first : UInt8) :
    first >>> 6 = 0 ∨ first >>> 6 = 1 ∨ first >>> 6 = 2 ∨ first >>> 6 = 3 := by
  have bound := first.toNat_lt
  have small : first.toNat / 64 < 4 := by omega
  simp only [← UInt8.toNat_inj, tag_toNat, UInt8.reduceToNat]
  omega

theorem following_le (first : UInt8) : following first ≤ 7 := by
  rcases tag_cases first with tag | tag | tag | tag <;> simp [following, tag]

/-- The four branches of the decoder are one: take the bytes the tag asks for. -/
theorem decode_cons (first : UInt8) (r : List UInt8) :
    decode (first :: r) =
      if r.length < following first then .error .unexpectedEnd
      else .ok (fromBuffer first (r.take (following first))
        (by have := following_le first; simp only [List.length_take]; omega),
        r.drop (following first)) := by
  rcases tag_cases first with tag | tag | tag | tag <;> simp [decode, following, tag]

theorem decode_reads_cons (first : UInt8) (tail : List UInt8) (width : tail.length = following first) :
    decode.Reads (first :: tail) (fromBuffer first tail (width ▸ following_le first)) := by
  intro rest
  have enough : ¬ (tail ++ rest).length < following first := by
    simp only [List.length_append]
    omega
  rw [List.cons_append, decode_cons, if_neg enough]
  simp only [← width, List.take_left', List.drop_left']

theorem decode_cons_ok {first : UInt8} {r rest : List UInt8} {x : VarInt}
    (decoded : decode (first :: r) = .ok (x, rest)) :
    ∃ (tail : List UInt8) (width : tail.length = following first), r = tail ++ rest ∧
      x = fromBuffer first tail (width ▸ following_le first) := by
  rw [decode_cons] at decoded
  by_cases short : r.length < following first
  · rw [if_pos short] at decoded
    cases decoded
  · rw [if_neg short] at decoded
    cases decoded
    have width : (r.take (following first)).length = following first := by
      rw [List.length_take]
      omega
    exact ⟨_, width, (List.take_append_drop _ r).symm, rfl⟩

/-- A decoded varint is determined by its own bytes: at least one and at most
eight. -/
theorem decode_ok {input rest : List UInt8} {x : VarInt} (decoded : decode input = .ok (x, rest)) :
    ∃ bytes, input = bytes ++ rest ∧ decode.Reads bytes x ∧ 1 ≤ bytes.length ∧ bytes.length ≤ 8 := by
  cases input with
  | nil => cases decoded
  | cons first r =>
      obtain ⟨tail, width, rfl, rfl⟩ := decode_cons_ok decoded
      have limit := following_le first
      have length : (first :: tail).length = following first + 1 := by simp [width]
      exact ⟨first :: tail, rfl, decode_reads_cons first tail width, by omega, by omega⟩

theorem decode_local : decode.Local := by
  intro input x rest decoded
  obtain ⟨bytes, split, reads, _, _⟩ := decode_ok decoded
  exact ⟨bytes, split, reads⟩

theorem decode_length_lt {input rest : List UInt8} {x : VarInt}
    (decoded : decode input = .ok (x, rest)) : rest.length < input.length := by
  obtain ⟨bytes, rfl, _, nonempty, _⟩ := decode_ok decoded
  simp only [List.length_append]
  omega

/-- The wire form of every width: the tag in the two high bits of the first
byte, the value big-endian in the rest. -/
theorem decode_reads_tagged (tag width : Nat) {value : Nat} (bound : value < 2 ^ 62) (small : tag < 4)
    (bytes : 2 ^ tag = width + 1) (fits : value < 2 ^ (8 * width + 6)) :
    decode.Reads (beBytes (width + 1) (tag <<< (8 * width + 6) ||| value)) ⟨value, bound⟩ := by
  have power : (2 : Nat) ^ (8 * width + 6) = 64 * 256 ^ width := by
    rw [Nat.pow_add, Nat.pow_mul, Nat.mul_comm]
  have joined : tag <<< (8 * width + 6) ||| value = tag * 64 * 256 ^ width + value := by
    rw [Nat.shiftLeft_eq, Nat.mul_comm, ← Nat.two_pow_add_eq_or_of_lt fits, power]
    ring
  have positive : 0 < 256 ^ width := Nat.pow_pos (by decide)
  have top : value / 256 ^ width < 64 := by
    rw [Nat.div_lt_iff_lt_mul positive, ← power]
    exact fits
  have split : beBytes (width + 1) (tag <<< (8 * width + 6) ||| value) =
      UInt8.ofNat (tag * 64 + value / 256 ^ width) :: beBytes width value := by
    rw [joined, beBytes, Nat.add_comm, Nat.add_mul_div_right _ _ positive, Nat.add_comm (value / _)]
    congr 1
    exact beBytes_congr (by rw [Nat.add_mul_mod_self_right])
  have recombined := Nat.div_add_mod value (256 ^ width)
  rw [split]
  generalize value / 256 ^ width = high at top recombined ⊢
  have firstNat : (UInt8.ofNat (tag * 64 + high)).toNat = tag * 64 + high := by
    simp only [UInt8.toNat_ofNat', Nat.reducePow]
    omega
  generalize UInt8.ofNat (tag * 64 + high) = first at firstNat ⊢
  have shifted : (first >>> 6).toNat = tag := by
    rw [tag_toNat, firstNat]
    omega
  have masked : (first &&& 0b00111111).toNat = high := by
    rw [UInt8.toNat_and, firstNat]
    change (tag * 64 + high) &&& (2 ^ 6 - 1) = _
    rw [Nat.and_two_pow_sub_one_eq_mod]
    omega
  have follow : (beBytes width value).length = following first := by
    rw [beBytes_length, following, shifted, bytes, Nat.add_sub_cancel]
  convert decode_reads_cons first _ follow using 1
  apply ext
  simp only [fromBuffer, beNat, masked, beNat_beBytes, beBytes_length]
  rw [Nat.mul_comm, recombined]

/-- A decoder reads back every encoded varint and leaves what follows. -/
theorem decode_reads_encode (x : VarInt) : decode.Reads x.encode x := by
  obtain ⟨value, bound⟩ := x
  rw [encode]
  dsimp only
  split
  case isTrue fits =>
    have form : [UInt8.ofNat value] = beBytes 1 (0 <<< 6 ||| value) := by simp [beBytes]
    rw [form]
    exact decode_reads_tagged 0 0 bound (by decide) rfl fits
  split
  case isTrue fits => exact decode_reads_tagged 1 1 bound (by decide) rfl fits
  split
  case isTrue fits => exact decode_reads_tagged 2 3 bound (by decide) rfl fits
  case isFalse => exact decode_reads_tagged 3 7 bound (by decide) rfl bound

theorem encode_length (x : VarInt) : x.encode.length = x.size := by
  rw [encode, size]
  split_ifs <;> simp

theorem size_le (x : VarInt) : x.size ≤ 8 := by
  rw [size]
  split_ifs <;> decide

theorem reads_form {bytes : List UInt8} {x : VarInt} (reads : decode.Reads bytes x) :
    ∃ first tail, bytes = first :: tail ∧ tail.length = following first ∧
      x.intoInner = beNat ((first &&& 0b00111111) :: tail) := by
  cases bytes with
  | nil => cases reads.alone
  | cons first r =>
      obtain ⟨tail, width, split, rfl⟩ := decode_cons_ok reads.alone
      exact ⟨first, tail, by simp [split], width, rfl⟩

/-- No encoding of a value is shorter than the one `encode` writes. -/
theorem size_le_of_reads {bytes : List UInt8} {x : VarInt} (reads : decode.Reads bytes x) :
    x.size ≤ bytes.length := by
  obtain ⟨first, tail, rfl, width, value⟩ := reads_form reads
  have bound := buffer_lt_pow first tail
  rw [← value] at bound
  have widths : tail.length = 0 ∨ tail.length = 1 ∨ tail.length = 3 ∨ tail.length = 7 := by
    rcases tag_cases first with tag | tag | tag | tag <;> simp [width, following, tag]
  rw [size, List.length_cons]
  rcases widths with zero | one | three | seven
  · rw [zero] at bound ⊢
    split_ifs <;> omega
  · rw [one] at bound ⊢
    split_ifs <;> omega
  · rw [three] at bound ⊢
    split_ifs <;> omega
  · rw [seven]
    split_ifs <;> omega

theorem eq_of_parts {first other : UInt8} (tags : first >>> 6 = other >>> 6)
    (masked : first &&& 0b00111111 = other &&& 0b00111111) : first = other := by
  have parts (byte : UInt8) : byte.toNat = (byte >>> 6).toNat * 64 + (byte &&& 0b00111111).toNat := by
    have high := tag_toNat byte
    have low : (byte &&& 0b00111111).toNat = byte.toNat % 64 := by
      rw [UInt8.toNat_and]
      exact Nat.and_two_pow_sub_one_eq_mod _ 6
    omega
  apply UInt8.toNat_inj.mp
  rw [parts first, parts other, tags, masked]

/-- Encodings of one value that have the same length are the same. -/
theorem eq_of_reads {left right : List UInt8} {x : VarInt} (leftReads : decode.Reads left x)
    (rightReads : decode.Reads right x) (same : left.length = right.length) : left = right := by
  obtain ⟨first, tail, rfl, width, value⟩ := reads_form leftReads
  obtain ⟨other, otherTail, rfl, otherWidth, otherValue⟩ := reads_form rightReads
  simp only [List.length_cons, Nat.add_right_cancel_iff] at same
  have bytes : (first &&& 0b00111111) :: tail = (other &&& 0b00111111) :: otherTail :=
    beNat_injective (by simp [same]) (value.symm.trans otherValue)
  obtain ⟨masked, tails⟩ := List.cons.inj bytes
  have tags : first >>> 6 = other >>> 6 := by
    have powers : following first = following other := by rw [← width, ← otherWidth, same]
    rcases tag_cases first with tag | tag | tag | tag <;>
      rcases tag_cases other with otherTag | otherTag | otherTag | otherTag <;>
      simp_all [following]
  rw [eq_of_parts tags masked, tails]

/-- An encoding in shortest form: no other encoding of the value is shorter. -/
def Shortest (bytes : List UInt8) (x : VarInt) : Prop :=
  ∀ other, decode.Reads other x → bytes.length ≤ other.length

theorem Shortest.eq_encode {bytes : List UInt8} {x : VarInt} (shortest : Shortest bytes x)
    (reads : decode.Reads bytes x) : bytes = x.encode := by
  have upper := shortest x.encode (decode_reads_encode x)
  have lower := size_le_of_reads reads
  rw [← encode_length] at lower
  exact eq_of_reads reads (decode_reads_encode x) (Nat.le_antisymm upper lower)

variable {ι : Type}

/-- Read a QUIC varint from an async stream: one byte for the tag, then the
rest.  The decode of the filled buffer is an `expect`. -/
def read (eof : ι) (stream : ByteStream ι) : Read ι VarIntUnexpectedEnd VarInt :=
  (stream.readExact eof 1).bind (fun _ => .unexpectedEnd) fun head stream =>
    (stream.readExact eof (following (head.headD 0))).bind (fun _ => .unexpectedEnd) fun tail stream =>
      match decode (head ++ tail) with
      | .ok (value, _) => .done value stream
      | .error _ => .panicked

/-- On the bytes that have arrived the stream reader is the buffer decoder.
Where the decoder runs out of bytes the reader waits for more or reports the
end of the stream. -/
theorem read_eq (eof : ι) (stream : ByteStream ι) :
    read eof stream =
      match decode stream.bytes with
      | .ok (value, rest) => .done value (stream.advance (stream.bytes.length - rest.length))
      | .error _ =>
          match stream.ending with
          | .waiting => .pending
          | .finished => .failed .unexpectedEnd
          | .failed _ => .failed .unexpectedEnd := by
  rw [read]
  cases arrived : stream.bytes with
  | nil =>
      rw [ByteStream.readExact_eq, arrived, if_neg (by simp)]
      cases stream.ending <;> rfl
  | cons first r =>
      have one : 1 ≤ stream.bytes.length := by simp [arrived]
      rw [ByteStream.readExact_done one, Read.bind_done, decode_cons]
      have head : stream.bytes.take 1 = [first] := by simp [arrived]
      rw [ByteStream.readExact_eq, ByteStream.bytes_advance, head, arrived]
      simp only [List.headD_cons, List.drop_succ_cons, List.drop_zero, ByteStream.ending_advance]
      by_cases short : r.length < following first
      · rw [if_neg (by omega), if_pos short]
        cases stream.ending <;> rfl
      · have width : (r.take (following first)).length = following first := by
          rw [List.length_take]
          omega
        rw [if_pos (by omega), if_neg short, Read.bind_done]
        simp only [List.singleton_append, (decode_reads_cons first _ width).alone,
          ByteStream.advance_advance, List.length_cons, List.length_drop]
        rw [show r.length + 1 - (r.length - following first) = 1 + following first by omega]

theorem decode_advance {stream : ByteStream ι} {x : VarInt} {rest : List UInt8}
    (decoded : decode stream.bytes = .ok (x, rest)) :
    (stream.advance (stream.bytes.length - rest.length)).bytes = rest := by
  obtain ⟨bytes, split, _⟩ := decode_local decoded
  rw [ByteStream.bytes_advance, split, List.length_append, Nat.add_sub_cancel, List.drop_left]

/-- The stream reader reads a value exactly where the decoder does, and leaves
the same bytes. -/
theorem read_iff_decode (eof : ι) (stream : ByteStream ι) (x : VarInt) (rest : List UInt8) :
    (∃ after, read eof stream = .done x after ∧ after.bytes = rest) ↔
      decode stream.bytes = .ok (x, rest) := by
  rw [read_eq]
  cases decoded : decode stream.bytes with
  | error error => cases stream.ending <;> simp
  | ok found =>
      obtain ⟨value, behind⟩ := found
      have left := decode_advance decoded
      simp only [Read.done.injEq, Except.ok.injEq, Prod.mk.injEq]
      constructor
      · intro read
        obtain ⟨after, ⟨same, advanced⟩, bytes⟩ := read
        rw [advanced] at left
        exact ⟨same, left.symm.trans bytes⟩
      · intro same
        obtain ⟨rfl, rfl⟩ := same
        exact ⟨_, ⟨rfl, rfl⟩, left⟩

theorem read_ne_panicked (eof : ι) (stream : ByteStream ι) : read eof stream ≠ .panicked := by
  rw [read_eq]
  cases decode stream.bytes with
  | error error => cases stream.ending <;> simp
  | ok found => simp

theorem size_le_of_decode {bytes rest : List UInt8} {x : VarInt} (decoded : decode bytes = .ok (x, rest)) :
    x.size ≤ bytes.length := by
  obtain ⟨consumed, rfl, reads⟩ := decode_local decoded
  have least := size_le_of_reads reads
  rw [List.length_append]
  omega

/-- Every integer is written in the fewest bytes that decode to it and read back
from there, whatever follows; and the stream reader agrees with the decoder,
however the bytes arrive. -/
theorem codec_agrees :
    (∀ (x : VarInt) (rest : List UInt8), x.encode.length = x.size ∧ decode (x.encode ++ rest) = .ok (x, rest)) ∧
    (∀ (x : VarInt) (bytes rest : List UInt8), decode bytes = .ok (x, rest) → x.size ≤ bytes.length) ∧
    ∀ (eof : ι) (stream : ByteStream ι), read eof stream ≠ .panicked ∧
      ∀ (x : VarInt) (rest : List UInt8),
        (∃ after, read eof stream = .done x after ∧ after.bytes = rest) ↔
          decode stream.bytes = .ok (x, rest) := by
  refine ⟨?_, ?_, ?_⟩
  · intro x rest
    exact ⟨encode_length x, decode_reads_encode x rest⟩
  · intro x bytes rest decoded
    exact size_le_of_decode decoded
  · intro eof stream
    exact ⟨read_ne_panicked eof stream, read_iff_decode eof stream⟩

end VarInt

end Webtrans.Proto
