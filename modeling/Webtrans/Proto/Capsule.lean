import Webtrans.Data.Utf8
import Webtrans.Proto.Tlv

namespace Webtrans.Proto

open Webtrans.Data

/-! Capsules (`webtrans-proto/src/capsule.rs`). -/

/-- The error kinds of `std::io` that the session tells apart. -/
inductive ErrorKind where
  | unexpectedEof
  | brokenPipe
  | connectionReset
  | connectionAborted
  | notConnected
  | other
deriving DecidableEq, Repr

/-- An I/O error: its kind and what it displays. -/
structure IoError where
  kind : ErrorKind
  message : String
deriving DecidableEq, Repr

/-- What `read_exact` reports when the stream finishes inside its buffer. -/
def IoError.earlyEof : IoError := ⟨.unexpectedEof, "early eof"⟩

def closeWebtransportSessionType : Nat := 0x2843
def maxMessageSize : Nat := 1024
def maxClosePayloadSize : Nat := 4 + maxMessageSize

inductive Capsule where
  | closeWebTransportSession (code : UInt32) (reason : String)
  | unknown (typ : VarInt) (payload : List UInt8)
deriving DecidableEq, Repr

inductive CapsuleError where
  | unexpectedEnd
  | invalidUtf8
  | messageTooLong
  | unknownType (typ : VarInt)
  | varInt (error : VarIntUnexpectedEnd)
  | io (error : IoError)
deriving DecidableEq, Repr

namespace Capsule

def decodePayload (typ : VarInt) (payload : List UInt8) : Except CapsuleError Capsule :=
  if typ.intoInner = closeWebtransportSessionType then
    if payload.length < 4 then .error .unexpectedEnd
    else
      let errorCode := UInt32.ofNat (beNat (payload.take 4))
      let messageBytes := payload.drop 4
      if messageBytes.length > maxMessageSize then .error .messageTooLong
      else
        match fromUtf8 messageBytes with
        | none => .error .invalidUtf8
        | some errorMessage => .ok (.closeWebTransportSession errorCode errorMessage)
  else .ok (.unknown typ payload)

def decode : Parser CapsuleError Capsule := fun buf =>
  match VarInt.decode buf with
  | .error error => .error (.varInt error)
  | .ok (typ, afterType) =>
      match VarInt.decode afterType with
      | .error error => .error (.varInt error)
      | .ok (length, view) =>
          if length.intoInner > maxClosePayloadSize then .error .messageTooLong
          else
            let payload := view.take length.intoInner
            if payload.length < length.intoInner then .error .unexpectedEnd
            else
              match decodePayload typ payload with
              | .error error => .error error
              | .ok capsule => .ok (capsule, view.drop length.intoInner)

/-- Encode this capsule at the end of the provided buffer.  The result comes
with the buffer as the call leaves it. -/
def encode (capsule : Capsule) (buf : List UInt8) : Except CapsuleError Unit × List UInt8 :=
  match capsule with
  | .closeWebTransportSession errorCode errorMessage =>
      if errorMessage.utf8ByteSize > maxMessageSize then (.error .messageTooLong, buf)
      else
        let typ : VarInt := ⟨closeWebtransportSessionType, by decide⟩
        let length := VarInt.fromU32 (UInt32.ofNat (4 + errorMessage.utf8ByteSize))
        (.ok (), buf ++ typ.encode ++ length.encode ++ beBytes 4 errorCode.toNat ++ asBytes errorMessage)
  | .unknown typ payload =>
      if payload.length > maxClosePayloadSize then (.error .messageTooLong, buf)
      else
        let buf := buf ++ typ.encode
        match VarInt.fromU64 payload.length with
        | none => (.error .messageTooLong, buf)
        | some length => (.ok (), buf ++ length.encode ++ payload)

def typ : Capsule → VarInt
  | closeWebTransportSession _ _ => ⟨closeWebtransportSessionType, by decide⟩
  | unknown typ _ => typ

def payload : Capsule → List UInt8
  | closeWebTransportSession code reason => beBytes 4 code.toNat ++ asBytes reason
  | unknown _ payload => payload

/-- No unknown capsule carries the CLOSE type, which only the other
constructor can be decoded from. -/
def Canonical : Capsule → Prop
  | closeWebTransportSession _ _ => True
  | unknown typ _ => typ.intoInner ≠ closeWebtransportSessionType

theorem decodePayload_payload {capsule : Capsule} (canonical : capsule.Canonical)
    (fits : capsule.payload.length ≤ maxClosePayloadSize) :
    decodePayload capsule.typ capsule.payload = .ok capsule := by
  cases capsule with
  | unknown typ payload => exact if_neg canonical
  | closeWebTransportSession code reason =>
      have width : (beBytes 4 code.toNat).length = 4 := beBytes_length 4 code.toNat
      have head : (beBytes 4 code.toNat ++ asBytes reason).take 4 = beBytes 4 code.toNat := by
        rw [List.take_append_of_le_length (by omega), List.take_of_length_le (by omega)]
      have tail : (beBytes 4 code.toNat ++ asBytes reason).drop 4 = asBytes reason := by
        rw [List.drop_append_of_le_length (by omega), List.drop_eq_nil_of_le (by omega), List.nil_append]
      have whole : UInt32.ofNat (beNat (beBytes 4 code.toNat)) = code := by
        rw [beNat_beBytes, Nat.mod_eq_of_lt (lt_of_lt_of_le code.toNat_lt (by decide)),
          UInt32.ofNat_toNat]
      simp only [payload, List.length_append, width, maxClosePayloadSize] at fits
      have enough : ¬ (beBytes 4 code.toNat ++ asBytes reason).length < 4 := by
        simp only [List.length_append, width]
        omega
      have short : ¬ (asBytes reason).length > maxMessageSize := by omega
      simp only [decodePayload, typ, payload, if_true, if_neg enough, head, tail, if_neg short,
        fromUtf8_asBytes, whole]

/-- On a complete record the decoder checks the declared length and then reads
the payload alone. -/
theorem decode_bytes (tlv : Tlv) (rest : List UInt8) :
    decode (tlv.bytes ++ rest) =
      if tlv.payload.length > maxClosePayloadSize then .error .messageTooLong
      else (decodePayload tlv.typ tlv.payload).map fun capsule => (capsule, rest) := by
  simp only [decode, tlv.decode_typ, tlv.decode_length, tlv.length_eq, List.take_left,
    List.drop_left, lt_irrefl, if_false]
  split
  · rfl
  · cases decodePayload tlv.typ tlv.payload <;> rfl

theorem payload_bound {capsule : Capsule} (fits : capsule.payload.length ≤ maxClosePayloadSize) :
    capsule.payload.length < 2 ^ 62 :=
  lt_of_le_of_lt fits (by decide)

/-- The record of a capsule, its header in shortest form. -/
def record (capsule : Capsule) (fits : capsule.payload.length ≤ maxClosePayloadSize) : Tlv :=
  Tlv.shortest capsule.typ capsule.payload (payload_bound fits)

/-- The encoder appends the record of a capsule within the limit, and writes
nothing for any other. -/
theorem encode_eq (capsule : Capsule) (buf : List UInt8) :
    capsule.encode buf =
      if fits : capsule.payload.length ≤ maxClosePayloadSize then
        (.ok (), buf ++ (capsule.record fits).bytes)
      else (.error .messageTooLong, buf) := by
  cases capsule with
  | closeWebTransportSession code reason =>
      have size : (payload (.closeWebTransportSession code reason)).length = 4 + reason.utf8ByteSize := by
        simp [payload]
      by_cases long : reason.utf8ByteSize > maxMessageSize
      · rw [dif_neg (by rw [size, maxClosePayloadSize]; omega), encode, if_pos long]
      · have fits : (payload (.closeWebTransportSession code reason)).length ≤ maxClosePayloadSize := by
          rw [size, maxClosePayloadSize]
          omega
        have small : 4 + reason.utf8ByteSize < 2 ^ 32 := by
          rw [maxMessageSize] at long
          omega
        have length : VarInt.fromU32 (UInt32.ofNat (4 + reason.utf8ByteSize)) =
            ⟨(payload (.closeWebTransportSession code reason)).length, payload_bound fits⟩ := by
          apply VarInt.ext
          simp only [VarInt.fromU32, size, UInt32.toNat_ofNat', Nat.mod_eq_of_lt small]
        rw [dif_pos fits, encode, if_neg long]
        simp only [record, Tlv.bytes, Tlv.header, Tlv.shortest, length, typ, payload, List.append_assoc]
  | unknown typ payload =>
      by_cases fits : payload.length ≤ maxClosePayloadSize
      · have bound : payload.length < 2 ^ 62 := @payload_bound (.unknown typ payload) fits
        have accepted : ¬ payload.length > maxClosePayloadSize := by omega
        have within : (Capsule.payload (.unknown typ payload)).length ≤ maxClosePayloadSize := fits
        rw [dif_pos within, encode, if_neg accepted]
        simp only [VarInt.fromU64, dif_pos bound, record, Tlv.bytes, Tlv.header, Tlv.shortest,
          Capsule.typ, Capsule.payload, List.append_assoc]
      · have long : ¬ (Capsule.payload (.unknown typ payload)).length ≤ maxClosePayloadSize := fits
        rw [dif_neg long, encode, if_pos (by omega)]

/-- What a successful encode appends: the record of the capsule with its
header in shortest form. -/
theorem encode_ok {capsule : Capsule} {buf out : List UInt8}
    (encoded : capsule.encode buf = (.ok (), out)) :
    capsule.payload.length ≤ maxClosePayloadSize ∧
      ∃ bound, out = buf ++ (Tlv.shortest capsule.typ capsule.payload bound).bytes := by
  rw [encode_eq] at encoded
  split at encoded
  case isTrue fits =>
    cases encoded
    exact ⟨fits, _, rfl⟩
  case isFalse => cases encoded

/-- A record that carries a canonical capsule within the limit reads back as
that capsule. -/
theorem decode_reads_tlv {capsule : Capsule} {tlv : Tlv} (canonical : capsule.Canonical)
    (typ : tlv.typ = capsule.typ) (payload : tlv.payload = capsule.payload)
    (fits : capsule.payload.length ≤ maxClosePayloadSize) : decode.Reads tlv.bytes capsule := by
  intro rest
  rw [decode_bytes, typ, payload, if_neg (by omega), decodePayload_payload canonical fits]
  rfl

theorem payload_of_decodePayload {typ : VarInt} {payload : List UInt8} {capsule : Capsule}
    (decoded : decodePayload typ payload = .ok capsule) :
    capsule.typ = typ ∧ capsule.payload = payload ∧ capsule.Canonical := by
  rw [decodePayload] at decoded
  split at decoded
  case isTrue close =>
    split at decoded
    · cases decoded
    · rename_i enough
      dsimp only at decoded
      split at decoded
      · cases decoded
      · split at decoded
        · cases decoded
        · rename_i reason valid
          cases decoded
          have width : (payload.take 4).length = 4 := by
            rw [List.length_take]
            omega
          have small := beNat_lt (payload.take 4)
          rw [width] at small
          change _ < 2 ^ 32 at small
          have code : beBytes 4 (UInt32.ofNat (beNat (payload.take 4))).toNat = payload.take 4 := by
            have whole := beBytes_beNat (payload.take 4)
            rw [width] at whole
            rw [UInt32.toNat_ofNat', Nat.mod_eq_of_lt small, whole]
          refine ⟨VarInt.ext close.symm, ?_, trivial⟩
          rw [Capsule.payload, code, asBytes_of_fromUtf8 valid, List.take_append_drop]
  case isFalse other =>
    cases decoded
    exact ⟨rfl, rfl, other⟩

/-- A decoded capsule is canonical, and its record is what the decoder consumed. -/
theorem record_of_decode {input rest : List UInt8} {capsule : Capsule}
    (decoded : decode input = .ok (capsule, rest)) :
    ∃ tlv : Tlv, input = tlv.bytes ++ rest ∧ tlv.typ = capsule.typ ∧ tlv.payload = capsule.payload ∧
      capsule.Canonical ∧ capsule.payload.length ≤ maxClosePayloadSize := by
  have read := decoded
  rw [decode] at read
  split at read
  · cases read
  · rename_i typ afterType typDecoded
    split at read
    · cases read
    · rename_i length view lengthDecoded
      split at read
      · cases read
      · rename_i within
        dsimp only at read
        split at read
        · cases read
        · rename_i enough
          have whole : length.intoInner ≤ view.length := by
            rw [List.length_take] at enough
            omega
          obtain ⟨tlv, sameTyp, sameLength, samePayload, split⟩ :=
            Tlv.of_decode typDecoded lengthDecoded whole
          cases inner : decodePayload typ (view.take length.intoInner) with
          | error error =>
              rw [inner] at read
              cases read
          | ok found =>
              rw [inner] at read
              cases read
              obtain ⟨typEq, payloadEq, canonical⟩ := payload_of_decodePayload inner
              refine ⟨tlv, split, sameTyp.trans typEq.symm, samePayload.trans payloadEq.symm,
                canonical, ?_⟩
              rw [payloadEq, List.length_take]
              omega

/-- A capsule encodes to bytes that any continuation leaves readable, exactly
when no unknown capsule carries the CLOSE type; a capsule that is refused
leaves the buffer alone. -/
theorem round_trip (capsule : Capsule) (buf : List UInt8) :
    (∃ error, capsule.encode buf = (.error error, buf)) ∨
      ∃ bytes, capsule.encode buf = (.ok (), buf ++ bytes) ∧
        ((∀ rest, decode (bytes ++ rest) = .ok (capsule, rest)) ↔ capsule.Canonical) := by
  rw [encode_eq]
  split
  case isTrue fits =>
    refine .inr ⟨_, rfl, ?_, ?_⟩
    · intro decoded
      obtain ⟨_, _, _, _, canonical, _⟩ := record_of_decode (decoded [])
      exact canonical
    · intro canonical
      exact decode_reads_tlv canonical rfl rfl fits
  case isFalse => exact .inl ⟨_, rfl⟩

/-- An unknown capsule with the CLOSE type is encoded and not read back. -/
theorem round_trip_closeType :
    let capsule := unknown ⟨closeWebtransportSessionType, by decide⟩ []
    ∃ bytes, capsule.encode [] = (.ok (), bytes) ∧ ¬ ∃ rest, decode bytes = .ok (capsule, rest) := by
  refine ⟨[0x68, 0x43, 0x00], by decide +kernel, ?_⟩
  have refused : decode [0x68, 0x43, 0x00] = .error .unexpectedEnd := by decide +kernel
  simp [refused]

/-- What is decoded can be encoded again, to no more bytes than were consumed,
and to the same bytes if their header was in shortest form. -/
theorem reencoded {input rest : List UInt8} {capsule : Capsule}
    (decoded : decode input = .ok (capsule, rest)) :
    ∃ tlv : Tlv, input = tlv.bytes ++ rest ∧
      tlv.bytes.length = tlv.header.length + tlv.length.intoInner ∧
      ∃ bytes, capsule.encode [] = (.ok (), bytes) ∧ bytes.length ≤ tlv.bytes.length ∧
        decode bytes = .ok (capsule, []) ∧
        (VarInt.Shortest tlv.typBytes tlv.typ → VarInt.Shortest tlv.lengthBytes tlv.length →
          bytes = tlv.bytes) := by
  obtain ⟨tlv, split, typ, payload, canonical, fits⟩ := record_of_decode decoded
  have length : tlv.length = ⟨capsule.payload.length, payload_bound fits⟩ :=
    VarInt.ext (by rw [tlv.length_eq, payload])
  have typSize := VarInt.size_le_of_reads tlv.typ_reads
  have lengthSize := VarInt.size_le_of_reads tlv.length_reads
  have reads : decode.Reads (capsule.record fits).bytes capsule :=
    decode_reads_tlv canonical rfl rfl fits
  refine ⟨tlv, split, by rw [tlv.bytes_length, tlv.length_eq], (capsule.record fits).bytes, ?_, ?_,
    reads.alone, ?_⟩
  · rw [encode_eq, dif_pos fits, List.nil_append]
  · rw [typ, ← VarInt.encode_length] at typSize
    rw [length, ← VarInt.encode_length] at lengthSize
    simp only [Tlv.bytes_length, Tlv.header, List.length_append, record, Tlv.shortest, payload]
    omega
  · intro typShortest lengthShortest
    have typBytes := typShortest.eq_encode tlv.typ_reads
    have lengthBytes := lengthShortest.eq_encode tlv.length_reads
    rw [typ] at typBytes
    rw [length] at lengthBytes
    simp only [Tlv.bytes, Tlv.header, typBytes, lengthBytes, payload, record, Tlv.shortest]

/-- A close capsule with a two-byte length is one byte shorter when encoded. -/
theorem reencoded_longLength :
    ∃ tlv : Tlv, [0x68, 0x43, 0x40, 0x05, 0x00, 0x00, 0x00, 0x2a, 0x68, 0xff] = tlv.bytes ++ [0xff] ∧
      tlv.bytes.length = tlv.header.length + tlv.length.intoInner ∧
      ∃ bytes, (closeWebTransportSession 42 "h").encode [] = (.ok (), bytes) ∧
        bytes.length ≤ tlv.bytes.length ∧ decode bytes = .ok (closeWebTransportSession 42 "h", []) ∧
        (VarInt.Shortest tlv.typBytes tlv.typ → VarInt.Shortest tlv.lengthBytes tlv.length →
          bytes = tlv.bytes) :=
  reencoded (by decide +kernel)

end Capsule

end Webtrans.Proto
