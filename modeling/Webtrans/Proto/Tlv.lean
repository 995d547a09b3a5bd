import Webtrans.Proto.VarInt

namespace Webtrans.Proto

open Webtrans.Data

/-- A complete type-length-value record, the common shape of HTTP/3 frames and
of capsules.  Both header varints may use any of their encodings. -/
structure Tlv where
  typ : VarInt
  payload : List UInt8
  typBytes : List UInt8
  length : VarInt
  lengthBytes : List UInt8
  typ_reads : VarInt.decode.Reads typBytes typ
  length_reads : VarInt.decode.Reads lengthBytes length
  length_eq : length.intoInner = payload.length

namespace Tlv

def header (tlv : Tlv) : List UInt8 :=
  tlv.typBytes ++ tlv.lengthBytes

def bytes (tlv : Tlv) : List UInt8 :=
  tlv.header ++ tlv.payload

@[simp] theorem bytes_length (tlv : Tlv) :
    tlv.bytes.length = tlv.header.length + tlv.payload.length := by
  simp [bytes]

/-- The record whose header varints are in shortest form. -/
def shortest (typ : VarInt) (payload : List UInt8) (bound : payload.length < 2 ^ 62) : Tlv where
  typ := typ
  payload := payload
  typBytes := typ.encode
  length := ⟨payload.length, bound⟩
  lengthBytes := VarInt.encode ⟨payload.length, bound⟩
  typ_reads := VarInt.decode_reads_encode typ
  length_reads := VarInt.decode_reads_encode _
  length_eq := rfl

theorem reads_nonempty {encoded : List UInt8} {x : VarInt} (reads : VarInt.decode.Reads encoded x) :
    0 < encoded.length := by
  have decoded := VarInt.decode_length_lt reads.alone
  omega

theorem header_length_pos (tlv : Tlv) : 0 < tlv.header.length := by
  have positive := reads_nonempty tlv.typ_reads
  simp only [header, List.length_append]
  omega

/-- A header varint is at most eight bytes long. -/
theorem reads_length_le {encoded : List UInt8} {x : VarInt}
    (reads : VarInt.decode.Reads encoded x) : encoded.length ≤ 8 := by
  obtain ⟨consumed, split, _, _, bound⟩ := VarInt.decode_ok reads.alone
  rw [List.append_nil] at split
  rwa [split]

/-- Where a buffer holding a front part of a record stream can end: inside the
type, inside the length, or somewhere behind the header. -/
theorem decode_prefix (tlv : Tlv) {buffer unread rest : List UInt8}
    (split : buffer ++ unread = tlv.bytes ++ rest) :
    (∃ error, VarInt.decode buffer = .error error) ∧ buffer.length < tlv.header.length ∨
    (∃ afterType error, VarInt.decode buffer = .ok (tlv.typ, afterType) ∧
        VarInt.decode afterType = .error error) ∧ buffer.length < tlv.header.length ∨
    ∃ afterType view, VarInt.decode buffer = .ok (tlv.typ, afterType) ∧
      VarInt.decode afterType = .ok (tlv.length, view) ∧ buffer = tlv.header ++ view ∧
      view ++ unread = tlv.payload ++ rest := by
  have typSplit : buffer ++ unread = tlv.typBytes ++ (tlv.lengthBytes ++ (tlv.payload ++ rest)) := by
    rw [split, bytes, header]
    simp only [List.append_assoc]
  rcases tlv.typ_reads.on_prefix VarInt.decode_local typSplit with
    ⟨error, failed, short⟩ | ⟨afterType, decoded, rfl, lengthSplit⟩
  · exact .inl ⟨⟨error, failed⟩, by simp only [header, List.length_append]; omega⟩
  · rcases tlv.length_reads.on_prefix VarInt.decode_local lengthSplit with
      ⟨error, failed, short⟩ | ⟨view, lengthDecoded, rfl, payloadSplit⟩
    · refine .inr (.inl ⟨⟨afterType, error, decoded, failed⟩, ?_⟩)
      simp only [header, List.length_append]
      omega
    · exact .inr (.inr ⟨tlv.lengthBytes ++ view, view, decoded, lengthDecoded,
        by simp only [header, List.append_assoc], payloadSplit⟩)

theorem decode_typ (tlv : Tlv) (rest : List UInt8) :
    VarInt.decode (tlv.bytes ++ rest) = .ok (tlv.typ, tlv.lengthBytes ++ (tlv.payload ++ rest)) := by
  have reads := tlv.typ_reads (tlv.lengthBytes ++ (tlv.payload ++ rest))
  simpa only [bytes, header, List.append_assoc] using reads

theorem decode_length (tlv : Tlv) (rest : List UInt8) :
    VarInt.decode (tlv.lengthBytes ++ (tlv.payload ++ rest)) = .ok (tlv.length, tlv.payload ++ rest) :=
  tlv.length_reads (tlv.payload ++ rest)

theorem of_decode {buf afterType view : List UInt8} {typ length : VarInt}
    (typDecoded : VarInt.decode buf = .ok (typ, afterType))
    (lengthDecoded : VarInt.decode afterType = .ok (length, view)) (enough : length.intoInner ≤ view.length) :
    ∃ tlv : Tlv, tlv.typ = typ ∧ tlv.length = length ∧ tlv.payload = view.take length.intoInner ∧
      buf = tlv.bytes ++ view.drop length.intoInner := by
  obtain ⟨typBytes, rfl, typReads⟩ := VarInt.decode_local typDecoded
  obtain ⟨lengthBytes, rfl, lengthReads⟩ := VarInt.decode_local lengthDecoded
  have width : length.intoInner = (view.take length.intoInner).length := by
    rw [List.length_take]
    omega
  refine ⟨⟨typ, _, typBytes, length, lengthBytes, typReads, lengthReads, width⟩, rfl, rfl, rfl, ?_⟩
  simp only [bytes, header, List.append_assoc, List.take_append_drop]

/-- The record at the front of some bytes is determined by them. -/
theorem unique {left right : Tlv} {leftRest rightRest : List UInt8}
    (same : left.bytes ++ leftRest = right.bytes ++ rightRest) :
    left.typ = right.typ ∧ left.payload = right.payload ∧ leftRest = rightRest := by
  have typ := left.decode_typ leftRest
  rw [same, right.decode_typ] at typ
  obtain ⟨sameTyp, behindType⟩ := Prod.mk.inj (Except.ok.inj typ)
  have length := left.decode_length leftRest
  rw [← behindType, right.decode_length] at length
  obtain ⟨sameLength, view⟩ := Prod.mk.inj (Except.ok.inj length)
  have width : right.payload.length = left.payload.length := by
    rw [← right.length_eq, ← left.length_eq, sameLength]
  obtain ⟨payload, rest⟩ := List.append_inj view width
  exact ⟨sameTyp.symm, payload.symm, rest.symm⟩

end Tlv

end Webtrans.Proto
