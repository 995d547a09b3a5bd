import Webtrans.Data.Retry
import Webtrans.Proto.Capsule
import Webtrans.Proto.Frame

namespace Webtrans.Proto

open Webtrans.Data

/-! Type-length-value records read from a stream, with a limit on their length.

Every reader of the source has this loop with a limit and errors of its own. -/

namespace VarInt

variable {ι : Type} {stream after : ByteStream ι} {value : VarInt}

theorem read_reads (eof : ι) {bytes rest : List UInt8} (reads : decode.Reads bytes value)
    (split : stream.bytes = bytes ++ rest) : read eof stream = .done value (stream.advance bytes.length) := by
  have consumed : (bytes ++ rest).length - rest.length = bytes.length := by
    rw [List.length_append, Nat.add_sub_cancel]
  rw [read_eq, split, reads rest]
  dsimp only
  rw [consumed]

/-- The read of a stream whose bytes are to begin with a varint waits, or
returns that varint. -/
theorem read_on_prefix (eof : ι) {bytes more rest : List UInt8} (reads : decode.Reads bytes value)
    (split : stream.bytes ++ more = bytes ++ rest) (may : stream.MayBring more) :
    read eof stream = .pending ∨ ∃ behind, stream.bytes = bytes ++ behind ∧ behind ++ more = rest := by
  rcases reads.on_prefix decode_local split with ⟨error, failed, short⟩ | ⟨behind, _, front, back⟩
  · left
    rw [ByteStream.MayBring] at may
    rw [read_eq, failed]
    cases ending : stream.ending with
    | waiting => rfl
    | finished =>
        rw [ending] at may
        have lengths := congrArg List.length split
        simp only [show more = [] from may, List.append_nil, List.length_append] at lengths
        omega
    | failed error =>
        rw [ending] at may
        exact may.elim
  · exact Or.inr ⟨behind, front, back⟩

theorem reads_of_read {eof : ι} (completed : read eof stream = .done value after) :
    ∃ bytes rest, decode.Reads bytes value ∧ stream.bytes = bytes ++ rest ∧
      after = stream.advance bytes.length := by
  have equation := read_eq eof stream
  cases decoded : decode stream.bytes with
  | error error =>
      rw [decoded, completed] at equation
      cases ending : stream.ending <;> simp [ending] at equation
  | ok result =>
      obtain ⟨found, rest⟩ := result
      obtain ⟨bytes, split, reads⟩ := decode_local decoded
      rw [read_reads eof reads split] at completed
      cases completed
      exact ⟨bytes, rest, reads, split, rfl⟩

end VarInt

structure RecordErrors (ε : Type) where
  unexpectedEnd : ε
  messageTooLong : ε
  io : IoError → ε

variable {ε : Type}

/-- Read the type, a length within the limit, and as many bytes. -/
def readRecord (errors : RecordErrors ε) (limit : Nat) (stream : ByteStream IoError) :
    Read IoError ε (VarInt × List UInt8) :=
  (VarInt.read .earlyEof stream).bind (fun _ => errors.unexpectedEnd) fun typ stream =>
    (VarInt.read .earlyEof stream).bind (fun _ => errors.unexpectedEnd) fun length stream =>
      if length.intoInner > limit then .failed errors.messageTooLong
      else
        (stream.readExact .earlyEof length.intoInner).bind errors.io fun payload stream =>
          .done (typ, payload) stream

variable {errors : RecordErrors ε} {limit : Nat} {stream after : ByteStream IoError}

theorem readRecord_tlv {tlv : Tlv} {rest : List UInt8} (split : stream.bytes = tlv.bytes ++ rest)
    (within : tlv.payload.length ≤ limit) :
    readRecord errors limit stream = .done (tlv.typ, tlv.payload) (stream.advance tlv.bytes.length) := by
  have typSplit : stream.bytes = tlv.typBytes ++ (tlv.lengthBytes ++ (tlv.payload ++ rest)) := by
    rw [split, Tlv.bytes, Tlv.header]
    simp only [List.append_assoc]
  have typ := VarInt.read_reads .earlyEof tlv.typ_reads typSplit
  have lengthSplit : (stream.advance tlv.typBytes.length).bytes =
      tlv.lengthBytes ++ (tlv.payload ++ rest) := by
    rw [ByteStream.bytes_advance, typSplit, List.drop_left]
  have length := VarInt.read_reads .earlyEof tlv.length_reads lengthSplit
  have payloadSplit : ((stream.advance tlv.typBytes.length).advance tlv.lengthBytes.length).bytes =
      tlv.payload ++ rest := by
    rw [ByteStream.bytes_advance, lengthSplit, List.drop_left]
  have enough : tlv.payload.length ≤
      ((stream.advance tlv.typBytes.length).advance tlv.lengthBytes.length).bytes.length := by
    rw [payloadSplit, List.length_append]
    omega
  have total : tlv.typBytes.length + (tlv.lengthBytes.length + tlv.payload.length) = tlv.bytes.length := by
    simp only [Tlv.bytes, Tlv.header, List.length_append, Nat.add_assoc]
  rw [readRecord, typ, Read.bind_done, length, Read.bind_done, tlv.length_eq, if_neg (by omega),
    ByteStream.readExact_done enough, Read.bind_done, payloadSplit, List.take_left,
    ByteStream.advance_advance, ByteStream.advance_advance, total]

theorem tlv_of_readRecord {typ : VarInt} {payload : List UInt8}
    (read : readRecord errors limit stream = .done (typ, payload) after) :
    ∃ (tlv : Tlv) (rest : List UInt8), tlv.typ = typ ∧ tlv.payload = payload ∧
      stream.bytes = tlv.bytes ++ rest ∧ tlv.payload.length ≤ limit ∧
      after = stream.advance tlv.bytes.length := by
  obtain ⟨found, afterType, typRead, read⟩ := Read.bind_eq_done read
  obtain ⟨length, afterLength, lengthRead, read⟩ := Read.bind_eq_done read
  obtain ⟨typBytes, behindType, typReads, typSplit, rfl⟩ := VarInt.reads_of_read typRead
  obtain ⟨lengthBytes, view, lengthReads, lengthSplit, rfl⟩ := VarInt.reads_of_read lengthRead
  rw [ByteStream.bytes_advance, typSplit, List.drop_left] at lengthSplit
  subst lengthSplit
  have viewSplit : ((stream.advance typBytes.length).advance lengthBytes.length).bytes = view := by
    rw [ByteStream.bytes_advance, ByteStream.bytes_advance, typSplit, List.drop_left, List.drop_left]
  split at read
  · cases read
  · rename_i within
    obtain ⟨filled, last, payloadRead, read⟩ := Read.bind_eq_done read
    cases read
    obtain ⟨enough, rfl, rfl⟩ := ByteStream.readExact_eq_done payloadRead
    rw [viewSplit] at enough ⊢
    have width : (view.take length.intoInner).length = length.intoInner := by
      rw [List.length_take]
      omega
    refine ⟨⟨typ, _, typBytes, length, lengthBytes, typReads, lengthReads, width.symm⟩,
      view.drop length.intoInner, rfl, rfl, ?_, by rw [width]; omega, ?_⟩
    · rw [typSplit, Tlv.bytes, Tlv.header]
      simp only [List.append_assoc, List.take_append_drop]
    · rw [ByteStream.advance_advance, ByteStream.advance_advance]
      simp only [Tlv.bytes, Tlv.header, List.length_append, width, Nat.add_assoc]

theorem readRecord_shrinks {record : VarInt × List UInt8}
    (read : readRecord errors limit stream = .done record after) :
    after.bytes.length < stream.bytes.length := by
  obtain ⟨tlv, rest, _, _, split, _, rfl⟩ := tlv_of_readRecord read
  have positive := tlv.header_length_pos
  rw [ByteStream.bytes_advance, split, List.drop_left, List.length_append, Tlv.bytes_length]
  omega

/-- Read records up to the first that is not GREASE. -/
def readFrame (errors : RecordErrors ε) (limit : Nat) (stream : ByteStream IoError) :
    Read IoError ε (Frame × List UInt8) :=
  match _next : readRecord errors limit stream with
  | .pending => .pending
  | .panicked => .panicked
  | .failed error => .failed error
  | .done (typ, payload) stream =>
      let typ : Frame := ⟨typ⟩
      if typ.isGrease then readFrame errors limit stream else .done (typ, payload) stream
termination_by stream.bytes.length
decreasing_by exact readRecord_shrinks _next

/-- GREASE records and one that is not, all of them complete. -/
structure FrameRun where
  grease : List Tlv
  reserved : ∀ tlv ∈ grease, isGreaseValue tlv.typ.intoInner = true
  frame : Tlv
  ordinary : isGreaseValue frame.typ.intoInner = false

namespace FrameRun

def bytes (run : FrameRun) : List UInt8 :=
  run.grease.flatMap Tlv.bytes ++ run.frame.bytes

def Within (run : FrameRun) (limit : Nat) : Prop :=
  ∀ tlv ∈ run.grease ++ [run.frame], tlv.payload.length ≤ limit

/-- The run with one more GREASE record in front. -/
def skip (tlv : Tlv) (reserved : isGreaseValue tlv.typ.intoInner = true) (run : FrameRun) : FrameRun where
  grease := tlv :: run.grease
  reserved := List.forall_mem_cons.mpr ⟨reserved, run.reserved⟩
  frame := run.frame
  ordinary := run.ordinary

def only (tlv : Tlv) (ordinary : isGreaseValue tlv.typ.intoInner = false) : FrameRun where
  grease := []
  reserved := Frame.reserved_nil
  frame := tlv
  ordinary := ordinary

theorem bytes_skip (tlv : Tlv) (reserved : isGreaseValue tlv.typ.intoInner = true) (run : FrameRun) :
    (run.skip tlv reserved).bytes = tlv.bytes ++ run.bytes := by
  rw [bytes, bytes, skip, List.flatMap_cons, List.append_assoc]

theorem within_skip {tlv : Tlv} {reserved : isGreaseValue tlv.typ.intoInner = true} {run : FrameRun} :
    (run.skip tlv reserved).Within limit ↔ tlv.payload.length ≤ limit ∧ run.Within limit :=
  List.forall_mem_cons

theorem within_only {tlv : Tlv} {ordinary : isGreaseValue tlv.typ.intoInner = false} :
    (only tlv ordinary).Within limit ↔ tlv.payload.length ≤ limit := by
  simp [Within, only]

end FrameRun

theorem readFrame_eq (errors : RecordErrors ε) (limit : Nat) (stream : ByteStream IoError) :
    readFrame errors limit stream =
      (readRecord errors limit stream).bind id fun record after =>
        if isGreaseValue record.1.intoInner then readFrame errors limit after
        else .done (⟨record.1⟩, record.2) after := by
  rw [readFrame]
  split
  next waiting => rw [waiting]; rfl
  next panicked => rw [panicked]; rfl
  next failed => rw [failed]; rfl
  next typ payload after next => rw [next]; rfl

/-- On complete records within the limit the loop returns the first that is
not GREASE. -/
theorem readFrame_run {run : FrameRun} {rest : List UInt8} (split : stream.bytes = run.bytes ++ rest)
    (within : run.Within limit) :
    readFrame errors limit stream =
      .done (⟨run.frame.typ⟩, run.frame.payload) (stream.advance run.bytes.length) := by
  obtain ⟨grease, reserved, frame, ordinary⟩ := run
  induction grease generalizing stream with
  | nil =>
      rw [readFrame_eq, readRecord_tlv split (within frame (by simp)), Read.bind_done,
        if_neg (by simp [ordinary])]
      rfl
  | cons tlv grease ih =>
      obtain ⟨first, later⟩ := List.forall_mem_cons.mp reserved
      have record : stream.bytes = tlv.bytes ++ (FrameRun.bytes ⟨grease, later, frame, ordinary⟩ ++ rest) := by
        rw [split, ← List.append_assoc, ← FrameRun.bytes_skip tlv first]
        rfl
      have behind : (stream.advance tlv.bytes.length).bytes =
          FrameRun.bytes ⟨grease, later, frame, ordinary⟩ ++ rest := by
        rw [ByteStream.bytes_advance, record, List.drop_left]
      have fits : ∀ other ∈ tlv :: (grease ++ [frame]), other.payload.length ≤ limit := within
      obtain ⟨fitsFirst, fitsLater⟩ := List.forall_mem_cons.mp fits
      rw [readFrame_eq, readRecord_tlv record fitsFirst, Read.bind_done, if_pos first,
        ih later behind fitsLater, ByteStream.advance_advance, ← List.length_append,
        ← FrameRun.bytes_skip tlv first]
      rfl

theorem run_of_readFrame {typ : Frame} {payload : List UInt8}
    (read : readFrame errors limit stream = .done (typ, payload) after) :
    ∃ (run : FrameRun) (rest : List UInt8), typ = ⟨run.frame.typ⟩ ∧ payload = run.frame.payload ∧
      stream.bytes = run.bytes ++ rest ∧ run.Within limit ∧ after = stream.advance run.bytes.length := by
  induction size : stream.bytes.length using Nat.strong_induction_on generalizing stream with
  | h size ih =>
      subst size
      rw [readFrame_eq] at read
      obtain ⟨⟨recordTyp, recordPayload⟩, middle, record, read⟩ := Read.bind_eq_done read
      have shorter := readRecord_shrinks record
      obtain ⟨tlv, behind, rfl, rfl, split, fits, rfl⟩ := tlv_of_readRecord record
      split at read
      next reserved =>
        obtain ⟨run, rest, sameTyp, samePayload, later, within, rfl⟩ := ih _ shorter read rfl
        rw [ByteStream.bytes_advance, split, List.drop_left] at later
        refine ⟨run.skip tlv reserved, rest, sameTyp, samePayload, ?_,
          FrameRun.within_skip.mpr ⟨fits, within⟩, ?_⟩
        · rw [split, later, FrameRun.bytes_skip, List.append_assoc]
        · rw [ByteStream.advance_advance, FrameRun.bytes_skip, List.length_append]
      next ordinary =>
        cases read
        have ordinary := Bool.eq_false_iff.mpr ordinary
        exact ⟨FrameRun.only tlv ordinary, behind, rfl, rfl, split, FrameRun.within_only.mpr fits, rfl⟩

theorem Frame.read_run (run : FrameRun) (rest : List UInt8) :
    Frame.read (run.bytes ++ rest) = .ok ((⟨run.frame.typ⟩, run.frame.payload), rest) := by
  rw [FrameRun.bytes, List.append_assoc, Frame.read_grease run.reserved, Frame.read_bytes, run.ordinary]
  rfl

theorem Frame.run_of_read {buf rest : List UInt8} {typ : Frame} {payload : List UInt8}
    (read : Frame.read buf = .ok ((typ, payload), rest)) :
    ∃ run : FrameRun, typ = ⟨run.frame.typ⟩ ∧ payload = run.frame.payload ∧ buf = run.bytes ++ rest := by
  induction size : buf.length using Nat.strong_induction_on generalizing buf with
  | h size ih =>
      subst size
      rw [Frame.read] at read
      split at read
      next => cases read
      next found afterType typDecoded =>
        split at read
        next => cases read
        next size view lengthDecoded =>
          split at read
          next => cases read
          next enough =>
            obtain ⟨tlv, foundTyp, _, foundPayload, split⟩ :=
              Tlv.of_decode (Frame.decode_ok typDecoded) lengthDecoded (Nat.le_of_not_lt enough)
            have grease : found.isGrease = isGreaseValue tlv.typ.intoInner := by
              rw [foundTyp]
              rfl
            rw [grease] at read
            split at read
            next reserved =>
              have shorter : (view.drop size.intoInner).length < buf.length := by
                have positive := tlv.header_length_pos
                rw [split, List.length_append, Tlv.bytes_length]
                omega
              obtain ⟨run, rfl, rfl, later⟩ := ih _ shorter read rfl
              refine ⟨run.skip tlv reserved, rfl, rfl, ?_⟩
              rw [split, later, FrameRun.bytes_skip, List.append_assoc]
            next ordinary =>
              cases read
              refine ⟨FrameRun.only tlv (Bool.eq_false_iff.mpr ordinary), ?_, foundPayload.symm, split⟩
              rw [FrameRun.only, foundTyp]

/-- A record header behind complete GREASE records declares this length. -/
inductive Declares : List UInt8 → Nat → Prop where
  | header {buf afterType view : List UInt8} {typ length : VarInt}
      (typDecoded : VarInt.decode buf = .ok (typ, afterType))
      (lengthDecoded : VarInt.decode afterType = .ok (length, view)) : Declares buf length.intoInner
  | behind {buf rest : List UInt8} {tlv : Tlv} {length : Nat} (split : buf = tlv.bytes ++ rest)
      (reserved : isGreaseValue tlv.typ.intoInner = true) (declares : Declares rest length) :
      Declares buf length

/-- Every header up to that of the first record that is not GREASE declares a
length within the limit. -/
def HeadersWithin (limit : Nat) (buf : List UInt8) : Prop :=
  ∀ length, Declares buf length → length ≤ limit

theorem declares_tlv {tlv : Tlv} {rest : List UInt8} {length : Nat} :
    Declares (tlv.bytes ++ rest) length ↔
      length = tlv.payload.length ∨
        isGreaseValue tlv.typ.intoInner = true ∧ Declares rest length := by
  constructor
  · intro declares
    cases declares with
    | header typDecoded lengthDecoded =>
        rw [tlv.decode_typ] at typDecoded
        cases typDecoded
        rw [tlv.decode_length] at lengthDecoded
        cases lengthDecoded
        exact .inl tlv.length_eq
    | behind split reserved declares =>
        obtain ⟨typ, _, same⟩ := Tlv.unique split
        exact .inr ⟨typ ▸ reserved, same ▸ declares⟩
  · intro declared
    obtain rfl | ⟨reserved, declares⟩ := declared
    · rw [← tlv.length_eq]
      exact .header (tlv.decode_typ rest) (tlv.decode_length rest)
    · exact .behind rfl reserved declares

theorem headersWithin_run (run : FrameRun) (limit : Nat) (rest : List UInt8) :
    HeadersWithin limit (run.bytes ++ rest) ↔ run.Within limit := by
  obtain ⟨grease, reserved, frame, ordinary⟩ := run
  induction grease with
  | nil =>
      have only : ∀ length, Declares (frame.bytes ++ rest) length ↔ length = frame.payload.length := by
        intro length
        rw [declares_tlv, or_iff_left]
        intro both
        rw [ordinary] at both
        cases both.1
      refine Iff.trans (forall_congr' fun length => imp_congr_left (only length)) ?_
      have within : (FrameRun.only frame ordinary).Within limit ↔ frame.payload.length ≤ limit :=
        FrameRun.within_only
      rw [forall_eq]
      exact within.symm
  | cons tlv grease ih =>
      obtain ⟨first, later⟩ := List.forall_mem_cons.mp reserved
      have bytes : FrameRun.bytes ⟨tlv :: grease, reserved, frame, ordinary⟩ ++ rest =
          tlv.bytes ++ (FrameRun.bytes ⟨grease, later, frame, ordinary⟩ ++ rest) := by
        rw [← List.append_assoc, ← FrameRun.bytes_skip tlv first]
        rfl
      have within : FrameRun.Within ⟨tlv :: grease, reserved, frame, ordinary⟩ limit ↔
          tlv.payload.length ≤ limit ∧ FrameRun.Within ⟨grease, later, frame, ordinary⟩ limit :=
        List.forall_mem_cons
      rw [within, ← ih later, bytes]
      constructor
      · intro all
        exact ⟨all _ (declares_tlv.mpr (.inl rfl)),
          fun length declares => all length (declares_tlv.mpr (.inr ⟨first, declares⟩))⟩
      · intro ⟨fits, all⟩ length declares
        obtain rfl | ⟨_, declares⟩ := declares_tlv.mp declares
        · exact fits
        · exact all length declares

/-- The decoder skips GREASE frames and looks at the next one alone. -/
structure FrameDecoder {α : Type} (decode : Parser ε α) (body : Frame → List UInt8 → Except ε α) : Prop where
  run : ∀ (run : FrameRun) (rest : List UInt8), decode (run.bytes ++ rest) =
    (body ⟨run.frame.typ⟩ run.frame.payload).map fun x => (x, rest)
  only : ∀ {buf rest : List UInt8} {x : α}, decode buf = .ok (x, rest) →
    ∃ run : FrameRun, buf = run.bytes ++ rest

variable {α : Type} {decode bufferDecode : Parser ε α} {body bufferBody : Frame → List UInt8 → Except ε α}

theorem FrameDecoder.of_andThen {unexpectedEnd : ε}
    (reads : decode = Parser.andThen Frame.read unexpectedEnd fun frame =>
      Parser.always (body frame.1 frame.2)) : FrameDecoder decode body := by
  subst reads
  constructor
  · intro run rest
    exact Parser.andThen_ok (Frame.read_run run rest)
  · intro buf rest x decoded
    cases read : Frame.read buf with
    | error error =>
        rw [Parser.andThen_error read] at decoded
        cases decoded
    | ok result =>
        obtain ⟨⟨typ, data⟩, behind⟩ := result
        obtain ⟨run, _, _, split⟩ := Frame.run_of_read read
        rw [Parser.andThen_ok read] at decoded
        cases found : body typ data with
        | error error =>
            rw [Parser.always, found] at decoded
            cases decoded
        | ok y =>
            rw [Parser.always, found] at decoded
            cases decoded
            exact ⟨run, split⟩

/-- The record in shortest form, for a decoder to read from its start. -/
def recordBytes (errors : RecordErrors ε) (record : VarInt × List UInt8) (stream : ByteStream IoError) :
    Read IoError ε (List UInt8) :=
  match VarInt.fromU64 record.2.length with
  | none => .failed errors.messageTooLong
  | some length => .done (record.1.encode ++ length.encode ++ record.2) stream

/-- Decode the bytes that were read. -/
def decodeRead (read : Read IoError ε (List UInt8)) (decode : Parser ε α) : Read IoError ε α :=
  read.bind id fun bytes stream =>
    match decode bytes with
    | .error error => .failed error
    | .ok (x, _) => .done x stream

/-- Read the first frame that is not GREASE, in shortest form. -/
def readShortest (errors : RecordErrors ε) (limit : Nat) (stream : ByteStream IoError) :
    Read IoError ε (List UInt8) :=
  (readFrame errors limit stream).bind id fun frame => recordBytes errors (frame.1.typ, frame.2)

def readFramed (errors : RecordErrors ε) (limit : Nat) (decode : Parser ε α) (stream : ByteStream IoError) :
    Read IoError ε α :=
  decodeRead (readShortest errors limit stream) decode

theorem decodeRead_done (bytes : List UInt8) (stream : ByteStream IoError) (decode : Parser ε α) :
    decodeRead (.done bytes stream) decode =
      match decode bytes with
      | .error error => .failed error
      | .ok (x, _) => .done x stream := rfl

/-- A record that was read has a length that is a varint. -/
theorem recordBytes_tlv (errors : RecordErrors ε) (tlv : Tlv) (stream : ByteStream IoError) :
    ∃ bound, recordBytes errors (tlv.typ, tlv.payload) stream =
      .done (Tlv.shortest tlv.typ tlv.payload bound).bytes stream := by
  have bound : tlv.payload.length < 2 ^ 62 := by
    rw [← tlv.length_eq]
    exact tlv.length.bound
  refine ⟨bound, ?_⟩
  rw [recordBytes, VarInt.fromU64, dif_pos bound]
  rfl

theorem FrameDecoder.shortest (decoder : FrameDecoder decode body) {typ : VarInt} {payload : List UInt8}
    (ordinary : isGreaseValue typ.intoInner = false) (bound : payload.length < 2 ^ 62) :
    decode (Tlv.shortest typ payload bound).bytes = (body ⟨typ⟩ payload).map fun x => (x, []) := by
  have run := decoder.run (FrameRun.only (Tlv.shortest typ payload bound) ordinary) []
  rw [List.append_nil] at run
  exact run

theorem readFramed_run (decoder : FrameDecoder decode body) {run : FrameRun} {rest : List UInt8}
    (split : stream.bytes = run.bytes ++ rest) (within : run.Within limit) :
    readFramed errors limit decode stream =
      match body ⟨run.frame.typ⟩ run.frame.payload with
      | .error error => .failed error
      | .ok x => .done x (stream.advance run.bytes.length) := by
  obtain ⟨bound, shortest⟩ := recordBytes_tlv errors run.frame (stream.advance run.bytes.length)
  rw [readFramed, readShortest, readFrame_run split within, Read.bind_done, shortest, decodeRead_done,
    decoder.shortest run.ordinary]
  cases body ⟨run.frame.typ⟩ run.frame.payload <;> rfl

/-- Complete frames within the limit up to the first that is not GREASE. -/
def CompleteFrames (limit : Nat) (buf : List UInt8) : Prop :=
  ∃ (run : FrameRun) (rest : List UInt8), buf = run.bytes ++ rest ∧ run.Within limit

/-- A stream reader and a buffer decoder agree: on what they accept, but for
headers the reader's limit rejects, on the bytes they consume, and on their
errors where the input is complete. -/
structure ReaderAgrees (read : ByteStream IoError → Read IoError ε α) (decode : Parser ε α)
    (within complete : List UInt8 → Prop) (same : List UInt8 → ε → ε → Prop) : Prop where
  accepts : ∀ stream x after, read stream = .done x after ↔
    ∃ rest, decode stream.bytes = .ok (x, rest) ∧ within stream.bytes ∧
      after = stream.advance (stream.bytes.length - rest.length)
  rejects : ∀ stream error, complete stream.bytes → read stream = .failed error →
    ∃ bufferError, decode stream.bytes = .error bufferError ∧ same stream.bytes error bufferError
  rejected : ∀ stream bufferError, complete stream.bytes → decode stream.bytes = .error bufferError →
    ∃ error, read stream = .failed error ∧ same stream.bytes error bufferError

section Units

variable {κ : Type} {bytes : κ → List UInt8} {fits : κ → Prop} {result bufferResult : κ → Except ε α}
  {read : ByteStream IoError → Read IoError ε α} {within : List UInt8 → Prop}

structure UnitReader (bytes : κ → List UInt8) (fits : κ → Prop) (result : κ → Except ε α)
    (read : ByteStream IoError → Read IoError ε α) : Prop where
  ok : ∀ {stream unit rest x}, stream.bytes = bytes unit ++ rest → fits unit → result unit = .ok x →
    read stream = .done x (stream.advance (bytes unit).length)
  error : ∀ {stream unit rest error}, stream.bytes = bytes unit ++ rest → fits unit →
    result unit = .error error → read stream = .failed error
  only : ∀ {stream x after}, read stream = .done x after →
    ∃ unit rest, stream.bytes = bytes unit ++ rest ∧ fits unit

structure UnitDecoder (bytes : κ → List UInt8) (fits : κ → Prop) (result : κ → Except ε α)
    (decode : Parser ε α) (within : List UInt8 → Prop) : Prop where
  run : ∀ {unit} rest, fits unit → decode (bytes unit ++ rest) = (result unit).map fun x => (x, rest)
  only : ∀ {buf rest x}, decode buf = .ok (x, rest) → within buf →
    ∃ unit, buf = bytes unit ++ rest ∧ fits unit
  within : ∀ {unit} rest, fits unit → within (bytes unit ++ rest)

theorem UnitReader.done_iff (reader : UnitReader bytes fits result read) {x : α} :
    read stream = .done x after ↔
      ∃ unit rest, stream.bytes = bytes unit ++ rest ∧ fits unit ∧ result unit = .ok x ∧
        after = stream.advance (stream.bytes.length - rest.length) := by
  have consumed : ∀ left right : List UInt8, (left ++ right).length - right.length = left.length := by
    intro left right
    rw [List.length_append, Nat.add_sub_cancel]
  constructor
  · intro completed
    obtain ⟨unit, rest, split, fit⟩ := reader.only completed
    cases found : result unit with
    | error error =>
        rw [reader.error split fit found] at completed
        cases completed
    | ok y =>
        rw [reader.ok split fit found] at completed
        cases completed
        exact ⟨unit, rest, split, fit, found, by rw [split, consumed]⟩
  · intro taken
    obtain ⟨unit, rest, split, fit, found, advanced⟩ := taken
    rw [reader.ok split fit found, advanced, split, consumed]

theorem UnitReader.failed_iff (reader : UnitReader bytes fits result read) {unit : κ} {rest : List UInt8}
    {error : ε} (split : stream.bytes = bytes unit ++ rest) (fit : fits unit) :
    read stream = .failed error ↔ result unit = .error error := by
  cases found : result unit with
  | ok x =>
      rw [reader.ok split fit found]
      exact iff_of_false nofun nofun
  | error other =>
      rw [reader.error split fit found, Read.failed.injEq, Except.error.injEq]

theorem UnitDecoder.ok_iff (decoder : UnitDecoder bytes fits result decode within) {buf rest : List UInt8}
    {x : α} :
    decode buf = .ok (x, rest) ∧ within buf ↔
      ∃ unit, buf = bytes unit ++ rest ∧ fits unit ∧ result unit = .ok x := by
  constructor
  · intro both
    obtain ⟨decoded, limited⟩ := both
    obtain ⟨unit, rfl, fit⟩ := decoder.only decoded limited
    rw [decoder.run rest fit] at decoded
    cases found : result unit with
    | error error =>
        rw [found] at decoded
        cases decoded
    | ok y =>
        rw [found] at decoded
        cases decoded
        exact ⟨unit, rfl, fit, found⟩
  · intro taken
    obtain ⟨unit, rfl, fit, found⟩ := taken
    refine ⟨?_, decoder.within rest fit⟩
    rw [decoder.run rest fit, found]
    rfl

theorem UnitDecoder.error_iff (decoder : UnitDecoder bytes fits result decode within) {unit : κ} {error : ε}
    (rest : List UInt8) (fit : fits unit) :
    decode (bytes unit ++ rest) = .error error ↔ result unit = .error error := by
  rw [decoder.run rest fit]
  cases result unit with
  | ok x => exact iff_of_false nofun nofun
  | error other => simp only [Except.map, Except.error.injEq]

/-- Where complete input is made of units that both sides take whole, they
agree when they agree on what each unit is. -/
theorem ReaderAgrees.of_units (reader : UnitReader bytes fits result read)
    (decoder : UnitDecoder bytes fits bufferResult decode within) {same : List UInt8 → ε → ε → Prop}
    (accepts : ∀ unit x, result unit = .ok x ↔ bufferResult unit = .ok x)
    (errs : ∀ unit rest error bufferError, result unit = .error error →
      bufferResult unit = .error bufferError → same (bytes unit ++ rest) error bufferError) :
    ReaderAgrees read decode within (fun buf => ∃ unit rest, buf = bytes unit ++ rest ∧ fits unit) same := by
  refine ⟨?_, ?_, ?_⟩
  · intro stream x after
    rw [reader.done_iff]
    constructor
    · intro taken
      obtain ⟨unit, rest, split, fit, found, advanced⟩ := taken
      obtain ⟨decoded, limited⟩ := decoder.ok_iff.mpr ⟨unit, split, fit, (accepts unit x).mp found⟩
      exact ⟨rest, decoded, limited, advanced⟩
    · intro accepted
      obtain ⟨rest, decoded, limited, advanced⟩ := accepted
      obtain ⟨unit, split, fit, found⟩ := decoder.ok_iff.mp ⟨decoded, limited⟩
      exact ⟨unit, rest, split, fit, (accepts unit x).mpr found, advanced⟩
  · intro stream error complete failed
    obtain ⟨unit, rest, split, fit⟩ := complete
    have found := (reader.failed_iff split fit).mp failed
    cases bufferFound : bufferResult unit with
    | ok x =>
        rw [(accepts unit x).mpr bufferFound] at found
        cases found
    | error bufferError =>
        rw [split]
        exact ⟨bufferError, (decoder.error_iff rest fit).mpr bufferFound, errs unit rest _ _ found bufferFound⟩
  · intro stream bufferError complete failed
    obtain ⟨unit, rest, split, fit⟩ := complete
    rw [split] at failed
    have bufferFound := (decoder.error_iff rest fit).mp failed
    cases found : result unit with
    | ok x =>
        rw [(accepts unit x).mp found] at bufferFound
        cases bufferFound
    | error error =>
        rw [split]
        exact ⟨error, (reader.failed_iff split fit).mpr found, errs unit rest _ _ found bufferFound⟩

end Units

theorem FrameDecoder.unitReader (errors : RecordErrors ε) (limit : Nat) (decoder : FrameDecoder decode body) :
    UnitReader FrameRun.bytes (FrameRun.Within · limit) (fun run => body ⟨run.frame.typ⟩ run.frame.payload)
      (readFramed errors limit decode) where
  ok split within found := by rw [readFramed_run decoder split within, found]
  error split within found := by rw [readFramed_run decoder split within, found]
  only completed := by
    obtain ⟨_, _, shortest, _⟩ := Read.bind_eq_done completed
    obtain ⟨⟨typ, payload⟩, _, frame, _⟩ := Read.bind_eq_done shortest
    obtain ⟨run, rest, _, _, split, within, _⟩ := run_of_readFrame frame
    exact ⟨run, rest, split, within⟩

theorem FrameDecoder.unitDecoder (limit : Nat) (decoder : FrameDecoder decode body) :
    UnitDecoder FrameRun.bytes (FrameRun.Within · limit) (fun run => body ⟨run.frame.typ⟩ run.frame.payload)
      decode (HeadersWithin limit) where
  run rest _ := decoder.run _ rest
  only decoded limited := by
    obtain ⟨run, rfl⟩ := decoder.only decoded
    exact ⟨run, rfl, (headersWithin_run run limit _).mp limited⟩
  within rest within := (headersWithin_run _ limit rest).mpr within

theorem readFramed_agrees (errors : RecordErrors ε) (limit : Nat) (reader : FrameDecoder decode body)
    (buffer : FrameDecoder bufferDecode bufferBody) {same : List UInt8 → ε → ε → Prop}
    (accepts : ∀ typ payload x, body typ payload = .ok x ↔ bufferBody typ payload = .ok x)
    (errs : ∀ (run : FrameRun) rest error bufferError, body ⟨run.frame.typ⟩ run.frame.payload = .error error →
      bufferBody ⟨run.frame.typ⟩ run.frame.payload = .error bufferError →
      same (run.bytes ++ rest) error bufferError) :
    ReaderAgrees (readFramed errors limit decode) bufferDecode (HeadersWithin limit) (CompleteFrames limit)
      same := by
  exact .of_units (reader.unitReader errors limit) (buffer.unitDecoder limit)
    (fun run x => accepts _ _ x) errs

end Webtrans.Proto
