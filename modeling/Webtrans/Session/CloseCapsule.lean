import Webtrans.Session.Machine
import Webtrans.Session.Reassembly

namespace Webtrans.Session

open Webtrans.Data Webtrans.Proto

/-! What a call of `close` puts on the wire: the reason cut to the limit, and
the DATA frame of the CLOSE capsule as the peer reads it. -/

theorem popToLimit_fits {chars : List Char} (fits : (String.ofList chars.reverse).utf8ByteSize ≤ 1024) :
    popToLimit chars = chars := by
  cases chars with
  | nil => rfl
  | cons last front => rw [popToLimit, if_neg (by omega)]

theorem popToLimit_pop {last : Char} {front : List Char}
    (large : 1024 < (String.ofList (last :: front).reverse).utf8ByteSize)
    (fits : (String.ofList front.reverse).utf8ByteSize ≤ 1024) : popToLimit (last :: front) = front := by
  rw [popToLimit, if_pos large, popToLimit_fits fits]

theorem capsuleReason_eq (reason : List UInt8) :
    capsuleReason reason = String.ofList (popToLimit (lossyChars reason).reverse).reverse := by
  rw [capsuleReason, fromUtf8Lossy, String.toList_ofList]

/-- A valid reason within the limit is left as it is. -/
theorem capsuleReason_asBytes {text : String} (fits : text.utf8ByteSize ≤ 1024) :
    capsuleReason (asBytes text) = text := by
  obtain ⟨chars, rfl⟩ := text.exists_eq_ofList
  rw [capsuleReason_eq, asBytes_ofList, lossyChars_encoded,
    popToLimit_fits (by rwa [List.reverse_reverse]), List.reverse_reverse]

/-- `run_closed` applies the function a second time, to no effect. -/
theorem capsuleReason_queuedReason (reason : List UInt8) :
    capsuleReason (queuedReason reason) = capsuleReason (reason.take 1024) :=
  capsuleReason_asBytes (capsuleReason_size _)

/-- Of a cut character only three of four bytes leave a trace: their
replacement is three bytes long, and so within the limit. -/
theorem capsuleReason_cut {front : List Char} {char : Char} {count : Nat} (inside : count < char.utf8Size)
    (position : (front.flatMap String.utf8EncodeChar).length + count = 1024) :
    capsuleReason (front.flatMap String.utf8EncodeChar ++ (String.utf8EncodeChar char).take count) =
      String.ofList (if count = 3 then front ++ ['\uFFFD'] else front) := by
  have size := utf8ByteSize_ofList front
  have replaced : (String.ofList (front ++ ['\uFFFD'])).utf8ByteSize =
      (front.flatMap String.utf8EncodeChar).length + 3 := by
    rw [utf8ByteSize_ofList, List.flatMap_append, List.length_append]
    rfl
  have most := char.utf8Size_le_four
  rw [capsuleReason_eq, lossyChars_append]
  by_cases boundary : count = 0
  · subst boundary
    rw [List.take_zero, lossyChars, List.append_nil, popToLimit_fits (by rw [List.reverse_reverse]; omega),
      List.reverse_reverse, if_neg (by decide)]
  · rw [lossyChars_cut char (by omega) inside]
    by_cases three : count = 3
    · rw [if_pos three, popToLimit_fits (by rw [List.reverse_reverse]; omega), List.reverse_reverse]
    · rw [if_neg three, List.reverse_append, List.reverse_singleton, List.singleton_append,
        popToLimit_pop (by rw [← List.singleton_append, ← List.reverse_singleton, ← List.reverse_append,
          List.reverse_reverse]; omega) (by rw [List.reverse_reverse]; omega), List.reverse_reverse]

/-- The replacement is no prefix: it would have to be the character itself. -/
theorem not_longestPrefix_replaced {limit : Nat} {front back : List Char} {char : Char}
    (four : char.utf8Size = 4) :
    ¬ LongestPrefix limit (String.ofList (front ++ char :: back)) (String.ofList (front ++ ['\uFFFD'])) := by
  intro kept
  obtain ⟨⟨rest, split⟩, _⟩ := kept
  have lists := congrArg String.toList split
  rw [String.toList_append, String.toList_ofList, String.toList_ofList, List.append_assoc,
    List.append_cancel_left_eq, List.singleton_append, List.cons.injEq] at lists
  rw [lists.1] at four
  cases four

/-- A character of four bytes starts at byte 1,021, so that the cut at 1,024
keeps three of them. -/
def SplitsFourBytes (text : String) : Prop :=
  ∃ front char back, text.toList = front ++ char :: back ∧ (String.ofList front).utf8ByteSize = 1021 ∧
    char.utf8Size = 4

/-- The reason in the CLOSE capsule is the longest prefix of the caller's text
within 1,024 bytes, exactly when the cut does not keep three bytes of four. -/
theorem longestPrefix_iff (code : UInt32) (text : String) :
    (∃ sent, (CloseCommand.mk code (queuedReason (asBytes text))).capsule =
        .closeWebTransportSession code sent ∧ LongestPrefix 1024 text sent) ↔
      ¬ SplitsFourBytes text := by
  obtain ⟨chars, rfl⟩ := text.exists_eq_ofList
  simp only [CloseCommand.capsule, capsuleReason_queuedReason, Capsule.closeWebTransportSession.injEq,
    true_and, exists_eq_left', SplitsFourBytes, String.toList_ofList]
  rcases take_encoded chars 1024 with fits | ⟨front, char, back, count, rfl, inside, position, taken⟩
  · have size := utf8ByteSize_ofList chars
    rw [List.take_of_length_le (by rw [asBytes_length]; omega), capsuleReason_asBytes (by omega)]
    refine ⟨fun _ splits => ?_, fun _ => .whole (by omega)⟩
    obtain ⟨front, char, back, rfl, position, four⟩ := splits
    rw [utf8ByteSize_ofList] at position
    rw [List.flatMap_append, List.flatMap_cons] at fits
    simp only [List.length_append, String.length_utf8EncodeChar] at fits
    omega
  · have size := utf8ByteSize_ofList front
    have longest : LongestPrefix 1024 (String.ofList (front ++ char :: back)) (String.ofList front) :=
      .cut (by omega) (by omega)
    rw [asBytes_ofList, taken, capsuleReason_cut inside position]
    by_cases three : count = 3
    · have most := char.utf8Size_le_four
      rw [if_pos three]
      exact ⟨fun kept => absurd kept (not_longestPrefix_replaced (by omega)),
        fun whole => absurd ⟨front, char, back, rfl, by omega, by omega⟩ whole⟩
    · rw [if_neg three]
      refine ⟨fun _ splits => ?_, fun _ => longest⟩
      obtain ⟨other, next, behind, split, start, four⟩ := splits
      have otherLongest : LongestPrefix 1024 (String.ofList (front ++ char :: back)) (String.ofList other) := by
        rw [split]
        exact .cut (by omega) (by omega)
      have same := longest.size_eq otherLongest
      omega

theorem capsuleReason_splits {front back : List Char} {char : Char}
    (start : (String.ofList front).utf8ByteSize = 1021) (four : char.utf8Size = 4) :
    capsuleReason ((asBytes (String.ofList (front ++ char :: back))).take 1024) =
      String.ofList (front ++ ['\uFFFD']) := by
  rw [utf8ByteSize_ofList] at start
  have taken : (asBytes (String.ofList (front ++ char :: back))).take 1024 =
      front.flatMap String.utf8EncodeChar ++ (String.utf8EncodeChar char).take 3 := by
    have width : 3 ≤ (String.utf8EncodeChar char).length := by
      rw [String.length_utf8EncodeChar]
      omega
    rw [asBytes_ofList, List.flatMap_append, List.take_append, start, List.take_of_length_le (by omega),
      List.flatMap_cons, List.take_append_of_le_length width]
  rw [taken, capsuleReason_cut (by omega) (by omega), if_pos rfl]

/-- One thousand and twenty-one letters and a character of four bytes. -/
def splitText : String := String.ofList (List.replicate 1021 'a' ++ ['😀'])

/-- The capsule carries a replacement character that the caller did not write. -/
theorem longestPrefix_splitText :
    (CloseCommand.mk 0 (queuedReason (asBytes splitText))).capsule =
        .closeWebTransportSession 0 (String.ofList (List.replicate 1021 'a' ++ ['\uFFFD'])) ∧
      ¬ LongestPrefix 1024 splitText (String.ofList (List.replicate 1021 'a' ++ ['\uFFFD'])) := by
  have letters : (String.ofList (List.replicate 1021 'a')).utf8ByteSize = 1021 := by
    rw [utf8ByteSize_ofList, List.length_flatMap, List.map_replicate, List.sum_replicate_nat]
    rfl
  have reason := @capsuleReason_splits (List.replicate 1021 'a') [] '😀' letters rfl
  have replaced := @not_longestPrefix_replaced 1024 (List.replicate 1021 'a') [] '😀' rfl
  have again := (capsuleReason_queuedReason (asBytes splitText)).trans reason
  exact ⟨congrArg (Capsule.closeWebTransportSession 0) again, replaced⟩

/-- A buffer that holds one accepted capsule gives it and keeps nothing. -/
theorem decodeBufferedCapsule_record {capsule : Capsule} (canonical : capsule.Canonical)
    (fits : capsule.payload.length ≤ maxClosePayloadSize) :
    decodeBufferedCapsule (capsule.record fits).bytes = .ok (some (capsule, [])) := by
  have reads : Capsule.decode.Reads (capsule.record fits).bytes capsule :=
    Capsule.decode_reads_tlv canonical rfl rfl fits
  rcases decodeBufferedCapsule_prefix (capsule.record fits) rfl with ⟨short, _⟩ | ⟨error, failed, _⟩ |
    ⟨found, behind, decoded, buffered, nothing⟩
  · omega
  · rw [reads.alone] at failed
    cases failed
  · rw [reads.alone] at decoded
    cases decoded
    rw [buffered, (List.append_eq_nil_iff.mp nothing).1]

/-- The DATA frame around a capsule record. -/
theorem writeCapsuleFrame_record {capsule : Capsule} (fits : capsule.payload.length ≤ maxClosePayloadSize)
    (bound : (capsule.record fits).bytes.length < 2 ^ 62) :
    writeCapsuleFrame capsule =
      .ok (Tlv.shortest Frame.data.typ (capsule.record fits).bytes bound).bytes := by
  rw [writeCapsuleFrame, Capsule.encode_eq, dif_pos fits, List.nil_append]
  simp only [VarInt.fromU64, dif_pos bound]
  rfl

theorem readCapsuleFrame_written {capsule : Capsule} (canonical : capsule.Canonical)
    (fits : capsule.payload.length ≤ maxClosePayloadSize) {frame : Tlv} (typ : frame.typ = Frame.data.typ)
    (payload : frame.payload = (capsule.record fits).bytes) (small : frame.payload.length ≤ maxCapsuleFrameSize)
    {recv : RecvStream} {rest : List UInt8} (arrived : recv.bytes = frame.bytes ++ rest) :
    readCapsuleFrame recv [] = .done (capsule, []) (recv.advance frame.bytes.length) := by
  have nothing : decodeBufferedCapsule [] = .ok none := rfl
  have grown : pendingAfter [] frame.typ frame.payload = (capsule.record fits).bytes := by
    rw [pendingAfter, if_pos typ, List.nil_append, payload]
  rw [readCapsuleFrame_eq, nothing, readFrame_bytes arrived small, Read.bind_done]
  dsimp only
  rw [grown, readCapsuleFrame_eq, decodeBufferedCapsule_record canonical fits]

theorem record_length (capsule : Capsule) (fits : capsule.payload.length ≤ maxClosePayloadSize) :
    (capsule.record fits).bytes.length ≤ 16 + maxClosePayloadSize := by
  have typ := Tlv.reads_length_le (capsule.record fits).typ_reads
  have length := Tlv.reads_length_le (capsule.record fits).length_reads
  rw [Tlv.bytes_length, Tlv.header, List.length_append]
  have payload : (capsule.record fits).payload.length ≤ maxClosePayloadSize := fits
  omega

theorem closePayload_fits (close : CloseCommand) :
    close.capsule.payload.length ≤ maxClosePayloadSize := by
  have size := capsuleReason_size close.reason
  simp only [CloseCommand.capsule, Capsule.payload, List.length_append, beBytes_length, asBytes_length,
    maxClosePayloadSize, maxMessageSize]
  omega

/-- Every close command is written as a DATA frame within the peer's limit. -/
theorem writeCapsuleFrame_close (close : CloseCommand) :
    ∃ frame : Tlv, writeCapsuleFrame close.capsule = .ok frame.bytes ∧ frame.typ = Frame.data.typ ∧
      frame.payload = (close.capsule.record (closePayload_fits close)).bytes ∧
      frame.bytes.length ≤ maxCapsuleFrameSize := by
  have length := record_length _ (closePayload_fits close)
  rw [maxClosePayloadSize, maxMessageSize] at length
  have bound : (close.capsule.record (closePayload_fits close)).bytes.length < 2 ^ 62 := by omega
  refine ⟨_, writeCapsuleFrame_record (closePayload_fits close) bound, rfl, rfl, ?_⟩
  have typ := Tlv.reads_length_le (Tlv.shortest Frame.data.typ _ bound).typ_reads
  have lengthBytes := Tlv.reads_length_le (Tlv.shortest Frame.data.typ _ bound).length_reads
  rw [Tlv.bytes_length, Tlv.header, List.length_append, maxCapsuleFrameSize]
  have payload : (Tlv.shortest Frame.data.typ _ bound).payload =
      (close.capsule.record (closePayload_fits close)).bytes := rfl
  rw [payload]
  omega

/-- Every close is delivered.  Whatever code and bytes `close` is given, the
queued reason is valid, short and left alone from then on; its capsule is
encoded into a frame within the peer's limit, and the peer reads the code and
reason that the local `run_closed` returns. -/
theorem close_delivered (code : UInt32) (reason : List UInt8) :
    ∃ text frame, fromUtf8 (queuedReason reason) = some text ∧ (queuedReason reason).length ≤ 1024 ∧
      capsuleReason (queuedReason reason) = text ∧
      (∃ bytes, (CloseCommand.mk code (queuedReason reason)).capsule.encode [] = (.ok (), bytes)) ∧
      writeCapsuleFrame (CloseCommand.mk code (queuedReason reason)).capsule = .ok frame ∧
      frame.length ≤ maxCapsuleFrameSize ∧
      (∀ (recv : RecvStream) rest, recv.bytes = frame ++ rest →
        readCapsuleFrame recv [] =
          .done (.closeWebTransportSession code text, []) (recv.advance frame.length)) ∧
      ∀ {backend : Backend} (s : State backend) written,
        s.task = .sending ⟨code, queuedReason reason⟩ written →
          (step s .closeDone).map (·.task) = some (.returned (.ok (some (code, text)))) := by
  obtain ⟨frame, written, typ, payload, small⟩ := writeCapsuleFrame_close ⟨code, queuedReason reason⟩
  have fits := closePayload_fits ⟨code, queuedReason reason⟩
  have again := capsuleReason_queuedReason reason
  have size : (queuedReason reason).length ≤ 1024 := by
    rw [queuedReason, asBytes_length]
    exact capsuleReason_size _
  have text : fromUtf8 (queuedReason reason) = some (capsuleReason (reason.take 1024)) := by
    rw [queuedReason]
    exact fromUtf8_asBytes _
  refine ⟨capsuleReason (reason.take 1024), frame.bytes, text, size, again,
    ⟨_, by rw [Capsule.encode_eq, dif_pos fits]⟩, written, small, ?_, ?_⟩
  · intro recv rest arrived
    have canonical : (CloseCommand.mk code (queuedReason reason)).capsule.Canonical := trivial
    rw [Tlv.bytes_length] at small
    have read := readCapsuleFrame_written canonical fits typ payload (by omega) arrived
    rw [read, CloseCommand.capsule, again]
  · intro backend s sent sending
    simp only [step, sending, Option.map_some, again]

end Webtrans.Session
