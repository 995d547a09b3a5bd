import Webtrans.Proto.Tlv

namespace Webtrans.Proto

open Webtrans.Data

/-! HTTP/3 frames and stream types (`webtrans-proto/src/frame.rs`, `stream.rs`,
`grease.rs`). -/

def greaseStart : Nat := 0x21
def greaseStep : Nat := 0x1f

def isGreaseValue (value : Nat) : Bool :=
  value ≥ greaseStart && (value - greaseStart) % greaseStep == 0

theorem isGreaseValue_iff (value : Nat) :
    isGreaseValue value = true ↔
      greaseStart ≤ value ∧ (value - greaseStart) % greaseStep = 0 := by
  rw [isGreaseValue, Bool.and_eq_true, decide_eq_true_iff, beq_iff_eq]

/-- The type of a unidirectional stream, in its leading bytes. -/
structure UniStream where
  typ : VarInt
deriving DecidableEq, Repr

namespace UniStream

def fromU32 (value : UInt32) : UniStream := ⟨VarInt.fromU32 value⟩

def control : UniStream := fromU32 0x00
def qpackEncoder : UniStream := fromU32 0x02
def qpackDecoder : UniStream := fromU32 0x03
def webtransport : UniStream := fromU32 0x54

def decode : Parser VarIntUnexpectedEnd UniStream := fun buf =>
  match VarInt.decode buf with
  | .error error => .error error
  | .ok (typ, rest) => .ok (⟨typ⟩, rest)

def encode (stream : UniStream) : List UInt8 := stream.typ.encode

theorem decode_reads {bytes : List UInt8} {stream : UniStream}
    (reads : VarInt.decode.Reads bytes stream.typ) : decode.Reads bytes stream := by
  intro rest
  rw [decode, reads rest]

end UniStream

structure Frame where
  typ : VarInt
deriving DecidableEq, Repr

namespace Frame

def fromU32 (value : UInt32) : Frame := ⟨VarInt.fromU32 value⟩

def data : Frame := fromU32 0x00
def headers : Frame := fromU32 0x01
def settings : Frame := fromU32 0x04
def webtransport : Frame := fromU32 0x41

def decode : Parser VarIntUnexpectedEnd Frame := fun buf =>
  match VarInt.decode buf with
  | .error error => .error error
  | .ok (typ, rest) => .ok (⟨typ⟩, rest)

def encode (frame : Frame) : List UInt8 := frame.typ.encode

def isGrease (frame : Frame) : Bool := isGreaseValue frame.typ.intoInner

theorem decode_ok {input rest : List UInt8} {frame : Frame} (decoded : decode input = .ok (frame, rest)) :
    VarInt.decode input = .ok (frame.typ, rest) := by
  rw [decode] at decoded
  split at decoded
  next => cases decoded
  next typDecoded =>
    cases decoded
    exact typDecoded

theorem decode_length_lt {input rest : List UInt8} {frame : Frame}
    (decoded : decode input = .ok (frame, rest)) : rest.length < input.length :=
  VarInt.decode_length_lt (decode_ok decoded)

/-- Read one full frame header and return its type and payload view, skipping
GREASE frames.  A 64-bit `usize` holds every varint, so its conversion does
not fail. -/
def read (buf : List UInt8) : Except VarIntUnexpectedEnd ((Frame × List UInt8) × List UInt8) :=
  match _typDecoded : decode buf with
  | .error error => .error error
  | .ok (typ, afterType) =>
      match _sizeDecoded : VarInt.decode afterType with
      | .error error => .error error
      | .ok (size, view) =>
          if view.length < size.intoInner then .error .unexpectedEnd
          else if typ.isGrease then read (view.drop size.intoInner)
          else .ok ((typ, view.take size.intoInner), view.drop size.intoInner)
termination_by buf.length
decreasing_by
  have afterTypeLt := decode_length_lt _typDecoded
  have viewLt := VarInt.decode_length_lt _sizeDecoded
  simp only [List.length_drop]
  omega

theorem read_bytes (tlv : Tlv) (rest : List UInt8) :
    read (tlv.bytes ++ rest) =
      if isGreaseValue tlv.typ.intoInner then read rest else .ok ((⟨tlv.typ⟩, tlv.payload), rest) := by
  rw [read]
  have typDecoded : decode (tlv.bytes ++ rest) =
      .ok (⟨tlv.typ⟩, tlv.lengthBytes ++ (tlv.payload ++ rest)) := by
    simp only [decode, tlv.decode_typ]
  have fits : ¬ (tlv.payload ++ rest).length < tlv.payload.length := by
    simp only [List.length_append]
    omega
  split
  next failed => rw [typDecoded] at failed; cases failed
  next decoded =>
    rw [typDecoded] at decoded
    cases decoded
    split
    next failed => rw [tlv.decode_length] at failed; cases failed
    next lengthDecoded =>
      rw [tlv.decode_length] at lengthDecoded
      cases lengthDecoded
      rw [tlv.length_eq, if_neg fits, List.drop_left, List.take_left]
      rfl

theorem reserved_nil : ∀ tlv ∈ ([] : List Tlv), isGreaseValue tlv.typ.intoInner = true :=
  List.forall_mem_nil _

/-- Complete GREASE frames are skipped. -/
theorem read_grease {grease : List Tlv} (reserved : ∀ tlv ∈ grease, isGreaseValue tlv.typ.intoInner = true)
    (rest : List UInt8) : read (grease.flatMap Tlv.bytes ++ rest) = read rest := by
  induction grease with
  | nil => rfl
  | cons tlv grease ih =>
      rw [List.flatMap_cons, List.append_assoc, read_bytes, if_pos (reserved tlv List.mem_cons_self)]
      exact ih fun later member => reserved later (List.mem_cons_of_mem _ member)

end Frame

end Webtrans.Proto
