import Webtrans.Session.Reassembly

namespace Webtrans.Session

open Webtrans.Data Webtrans.Proto

/-! The buffered capsule parser against the codec. -/

/-- `decode_buffered_capsule` with its `&mut` argument: the result of the call
and the buffer as the call leaves it. -/
def bufferedCall (pending : List UInt8) : Except CapsuleError (Option Capsule) × List UInt8 :=
  match decodeBufferedCapsule pending with
  | .error error => (.error error, pending)
  | .ok none => (.ok none, pending)
  | .ok (some (capsule, behind)) => (.ok (some capsule), behind)

/-- The bytes are a strict front part of a header and its declared payload, and
the declared length is within the limit if they contain it already. -/
def Incomplete (pending : List UInt8) : Prop :=
  ∃ record : Tlv, pending <+: record.bytes ∧ pending.length < record.bytes.length ∧
    (record.header.length ≤ pending.length → record.payload.length ≤ 1028)

/-- A varint that is cut off can be completed. -/
theorem varInt_completion {buffer : List UInt8} {error : VarIntUnexpectedEnd}
    (failed : VarInt.decode buffer = .error error) :
    ∃ missing x, missing ≠ [] ∧ VarInt.decode.Reads (buffer ++ missing) x := by
  cases buffer with
  | nil =>
      refine ⟨[0], _, by simp, VarInt.decode_reads_cons 0 [] ?_⟩
      decide
  | cons first tail =>
      rw [VarInt.decode_cons] at failed
      split at failed
      case isTrue short =>
        refine ⟨List.replicate (VarInt.following first - tail.length) 0, _, ?_,
          VarInt.decode_reads_cons first _ ?_⟩
        · rw [ne_eq, List.replicate_eq_nil_iff]
          omega
        · change (tail ++ List.replicate (VarInt.following first - tail.length) 0).length = _
          rw [List.length_append, List.length_replicate]
          omega
      case isFalse => cases failed

/-- A record with this header and some payload of the declared length. -/
theorem record_of_header {typBytes lengthBytes : List UInt8} {typ length : VarInt}
    (typReads : VarInt.decode.Reads typBytes typ) (lengthReads : VarInt.decode.Reads lengthBytes length)
    (view : List UInt8) (fits : view.length ≤ length.intoInner) :
    ∃ record : Tlv, record.header = typBytes ++ lengthBytes ∧ record.length = length ∧
      typBytes ++ lengthBytes ++ view <+: record.bytes := by
  have width : length.intoInner =
      (view ++ List.replicate (length.intoInner - view.length) 0).length := by
    rw [List.length_append, List.length_replicate]
    omega
  refine ⟨⟨typ, _, typBytes, length, lengthBytes, typReads, lengthReads, width⟩, rfl, rfl, ?_⟩
  rw [Tlv.bytes, ← List.append_assoc]
  exact List.prefix_append _ _

theorem incomplete_of_header {pending : List UInt8} {record : Tlv} (front : pending <+: record.bytes)
    (short : pending.length < record.header.length) : Incomplete pending := by
  refine ⟨record, front, ?_, ?_⟩
  · rw [record.bytes_length]
    omega
  · intro known
    omega

theorem incomplete_of_typ {pending : List UInt8} {error : VarIntUnexpectedEnd}
    (failed : VarInt.decode pending = .error error) : Incomplete pending := by
  obtain ⟨missing, typ, nonempty, typReads⟩ := varInt_completion failed
  obtain ⟨record, header, _, front⟩ := record_of_header typReads (VarInt.decode_reads_encode typ) []
    (Nat.zero_le _)
  have more := List.length_pos_iff.mpr nonempty
  refine @incomplete_of_header _ record ?_ ?_
  · rw [List.append_nil, List.append_assoc] at front
    exact (List.prefix_append _ _).trans front
  · simp only [header, List.length_append]
    omega

theorem incomplete_of_length {pending afterType : List UInt8} {typ : VarInt} {error : VarIntUnexpectedEnd}
    (typDecoded : VarInt.decode pending = .ok (typ, afterType))
    (failed : VarInt.decode afterType = .error error) : Incomplete pending := by
  obtain ⟨typBytes, rfl, typReads⟩ := VarInt.decode_local typDecoded
  obtain ⟨missing, length, nonempty, lengthReads⟩ := varInt_completion failed
  obtain ⟨record, header, _, front⟩ := record_of_header typReads lengthReads [] (Nat.zero_le _)
  have more := List.length_pos_iff.mpr nonempty
  refine @incomplete_of_header _ record ?_ ?_
  · rw [List.append_nil, ← List.append_assoc] at front
    exact (List.prefix_append _ _).trans front
  · simp only [header, List.length_append]
    omega

/-- A header is at most sixteen bytes long. -/
theorem Incomplete.length_le {pending : List UInt8} (incomplete : Incomplete pending) :
    pending.length ≤ 1043 := by
  obtain ⟨record, _, short, known⟩ := incomplete
  have typBytes := Tlv.reads_length_le record.typ_reads
  have lengthBytes := Tlv.reads_length_le record.length_reads
  have header : record.header.length ≤ 16 := by
    rw [Tlv.header, List.length_append]
    omega
  rw [record.bytes_length] at short
  by_cases complete : record.header.length ≤ pending.length
  · have payload := known complete
    omega
  · omega

section Header

variable {pending afterType view : List UInt8} {typ length : VarInt}
  (typDecoded : VarInt.decode pending = .ok (typ, afterType))
  (lengthDecoded : VarInt.decode afterType = .ok (length, view))

include typDecoded lengthDecoded

/-- With the header complete, what is missing can only be payload. -/
theorem incomplete_iff_of_header :
    Incomplete pending ↔ length.intoInner ≤ 1028 ∧ view.length < length.intoInner := by
  constructor
  · intro incomplete
    obtain ⟨record, ⟨unread, split⟩, short, known⟩ := incomplete
    have whole : pending ++ unread = record.bytes ++ [] := by rw [split, List.append_nil]
    rcases record.decode_prefix whole with ⟨⟨error, failed⟩, _⟩ |
      ⟨⟨otherType, error, typAgain, failed⟩, _⟩ | ⟨otherType, other, typAgain, lengthAgain, rfl, _⟩
    · rw [failed] at typDecoded
      cases typDecoded
    · rw [typAgain] at typDecoded
      cases typDecoded
      rw [failed] at lengthDecoded
      cases lengthDecoded
    · rw [typAgain] at typDecoded
      cases typDecoded
      rw [lengthAgain] at lengthDecoded
      cases lengthDecoded
      rw [record.length_eq]
      simp only [record.bytes_length, List.length_append] at short
      refine ⟨known ?_, by omega⟩
      rw [List.length_append]
      omega
  · intro both
    obtain ⟨within, short⟩ := both
    obtain ⟨typBytes, rfl, typReads⟩ := VarInt.decode_local typDecoded
    obtain ⟨lengthBytes, rfl, lengthReads⟩ := VarInt.decode_local lengthDecoded
    obtain ⟨record, header, declared, front⟩ := record_of_header typReads lengthReads view short.le
    have payload : record.payload.length = length.intoInner := by rw [← record.length_eq, declared]
    refine ⟨record, by rwa [← List.append_assoc], ?_, fun _ => by omega⟩
    rw [record.bytes_length, header, payload]
    simp only [List.length_append]
    omega

theorem decodeBufferedCapsule_header :
    decodeBufferedCapsule pending =
      if length.intoInner > 1028 then .error .messageTooLong
      else if view.length < length.intoInner then .ok none
      else (Capsule.decode pending).map some := by
  have total : pending.length - view.length + view.length = pending.length := by
    have typShorter := VarInt.decode_length_lt typDecoded
    have lengthShorter := VarInt.decode_length_lt lengthDecoded
    omega
  rw [decodeBufferedCapsule, typDecoded]
  dsimp only
  rw [lengthDecoded]
  dsimp only
  split
  case isTrue => rfl
  case isFalse within =>
    by_cases short : view.length < length.intoInner
    · rw [if_pos short, if_pos (by omega)]
    · rw [if_neg short, if_neg (by omega)]
      obtain ⟨record, _, sameLength, _, split⟩ := Tlv.of_decode typDecoded lengthDecoded (by omega)
      have width : record.bytes.length = pending.length - view.length + length.intoInner := by
        have lengths := congrArg List.length split
        simp only [List.length_append, List.length_drop] at lengths
        omega
      have small : ¬ record.payload.length > maxClosePayloadSize := by
        rw [← record.length_eq, sameLength]
        exact within
      have alone := Capsule.decode_bytes record []
      rw [List.append_nil, if_neg small] at alone
      rw [← width, split, List.take_left, List.drop_left, alone, Capsule.decode_bytes, if_neg small]
      cases Capsule.decodePayload record.typ record.payload <;> rfl

theorem decode_header :
    Capsule.decode pending =
      if length.intoInner > 1028 then .error .messageTooLong
      else if view.length < length.intoInner then .error .unexpectedEnd
      else (Capsule.decodePayload typ (view.take length.intoInner)).map
        fun capsule => (capsule, view.drop length.intoInner) := by
  rw [Capsule.decode, typDecoded]
  dsimp only
  rw [lengthDecoded]
  dsimp only
  rw [show maxClosePayloadSize = 1028 from rfl]
  by_cases oversized : length.intoInner > 1028
  · rw [if_pos oversized, if_pos oversized]
  · rw [if_neg oversized, if_neg oversized, List.length_take]
    by_cases short : view.length < length.intoInner
    · rw [if_pos short, if_pos (by omega)]
    · rw [if_neg short, if_neg (by omega)]
      cases Capsule.decodePayload typ (view.take length.intoInner) <;> rfl

end Header

/-- On a front part of a record the buffered parser waits; on everything else
it answers as the codec does. -/
theorem decodeBufferedCapsule_cases (pending : List UInt8) :
    (Incomplete pending ∧ decodeBufferedCapsule pending = .ok none ∧
      ∃ error, Capsule.decode pending = .error error ∧ error ≠ .messageTooLong) ∨
    (¬ Incomplete pending ∧ decodeBufferedCapsule pending = (Capsule.decode pending).map some) := by
  cases typDecoded : VarInt.decode pending with
  | error error =>
      refine .inl ⟨incomplete_of_typ typDecoded, ?_, .varInt error, ?_, by simp⟩
      · rw [decodeBufferedCapsule, typDecoded]
      · rw [Capsule.decode, typDecoded]
  | ok found =>
      obtain ⟨typ, afterType⟩ := found
      cases lengthDecoded : VarInt.decode afterType with
      | error error =>
          refine .inl ⟨incomplete_of_length typDecoded lengthDecoded, ?_, .varInt error, ?_, by simp⟩
          · simp only [decodeBufferedCapsule, typDecoded, lengthDecoded]
          · simp only [Capsule.decode, typDecoded, lengthDecoded]
      | ok found =>
          obtain ⟨length, view⟩ := found
          rw [incomplete_iff_of_header typDecoded lengthDecoded,
            decodeBufferedCapsule_header typDecoded lengthDecoded]
          have decoded := decode_header typDecoded lengthDecoded
          by_cases oversized : length.intoInner > 1028
          · rw [if_pos oversized] at decoded ⊢
            rw [decoded]
            exact .inr ⟨by omega, rfl⟩
          · rw [if_neg oversized] at decoded ⊢
            by_cases short : view.length < length.intoInner
            · rw [if_pos short] at decoded ⊢
              exact .inl ⟨by omega, rfl, .unexpectedEnd, decoded, by simp⟩
            · rw [if_neg short]
              exact .inr ⟨by omega, rfl⟩

/-- The buffered parser agrees with the codec: it takes the capsule that the
codec decodes and the bytes that it consumes, waits exactly for the rest of a
record within the limit, and otherwise fails as the codec fails. -/
theorem bufferedCall_agrees (pending : List UInt8) :
    (∀ capsule rest, bufferedCall pending = (.ok (some capsule), rest) ↔
      Capsule.decode pending = .ok (capsule, rest)) ∧
    (bufferedCall pending = (.ok none, pending) ↔ Incomplete pending) ∧
    (bufferedCall pending = (.error .messageTooLong, pending) ↔
      Capsule.decode pending = .error .messageTooLong) ∧
    ((∀ capsule rest, bufferedCall pending ≠ (.ok (some capsule), rest)) →
      bufferedCall pending ≠ (.ok none, pending) →
      ∃ error, Capsule.decode pending = .error error ∧ bufferedCall pending = (.error error, pending)) := by
  rcases decodeBufferedCapsule_cases pending with ⟨incomplete, waits, error, failed, other⟩ |
    ⟨complete, answers⟩
  · have call : bufferedCall pending = (.ok none, pending) := by rw [bufferedCall, waits]
    simp [call, failed, incomplete, other]
  · cases decoded : Capsule.decode pending with
    | error error =>
        have call : bufferedCall pending = (.error error, pending) := by
          rw [bufferedCall, answers, decoded]
          rfl
        simp [call, complete]
    | ok result =>
        obtain ⟨capsule, rest⟩ := result
        have call : bufferedCall pending = (.ok (some capsule), rest) := by
          rw [bufferedCall, answers, decoded]
          rfl
        simp [call, complete]

end Webtrans.Session
