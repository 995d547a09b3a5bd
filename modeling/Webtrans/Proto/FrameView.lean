import Webtrans.Data.Buf
import Webtrans.Proto.RecordReader

namespace Webtrans.Proto

open Webtrans.Data

/-! Frames read from any buffer, with the payload left in it as a limited view
(`webtrans-proto/src/frame.rs`, `varint.rs`).

Elsewhere a buffer is the list of its bytes.  Here the reads are those the
source makes, and the readers on lists say what they read. -/

variable {β : Type u} [Buf β]

open Buf

/-- What a read from a buffer says about the bytes of that buffer. -/
def onContents {ε α : Type} (result : Except ε (α × β)) : Except ε (α × List UInt8) :=
  result.map (Prod.map id contents)

section OnContents

variable {ε α : Type} {result : Except ε (α × β)} {parsed : Except ε (α × List UInt8)}

theorem parsed_ok {x : α} {after : β} (same : onContents result = parsed) (found : result = .ok (x, after)) :
    parsed = .ok (x, contents after) := by
  rw [← same, found]
  rfl

theorem parsed_error {error : ε} (same : onContents result = parsed) (failed : result = .error error) :
    parsed = .error error := by
  rw [← same, failed]
  rfl

end OnContents

namespace VarInt

theorem nil_short : ([] : List UInt8).length ≤ 7 := Nat.zero_le 7

/-- `copy_to_slice` of the `count` bytes behind the first one. -/
def decodeTail (first : UInt8) (count : Nat) (short : count ≤ 7) (r : β) :
    Except VarIntUnexpectedEnd (VarInt × β) :=
  if remaining r < count then .error .unexpectedEnd
  else
    .ok (fromBuffer first (copyToBytes r count).1 ((copyToBytes_length_le r count).trans short),
      (copyToBytes r count).2)

/-- Decode a QUIC varint from a buffer. -/
def decodeFrom (r : β) : Except VarIntUnexpectedEnd (VarInt × β) :=
  if hasRemaining r then
    let (first, r) := getU8 r
    let tag := first >>> 6
    if tag = 0b00 then .ok (fromBuffer first [] nil_short, r)
    else if tag = 0b01 then decodeTail first 1 (by decide) r
    else if tag = 0b10 then decodeTail first 3 (by decide) r
    else decodeTail first 7 (by decide) r
  else .error .unexpectedEnd

theorem decodeTail_contents (first : UInt8) {count : Nat} (short : count ≤ 7) (r : β) :
    onContents (decodeTail first count short r) =
      if remaining r < count then .error .unexpectedEnd
      else .ok (fromBuffer first ((contents r).take count) ((List.length_take_le count _).trans short),
        (contents r).drop count) := by
  rw [decodeTail]
  by_cases few : remaining r < count
  · rw [if_pos few, if_pos few]
    rfl
  · have behind := contents_copyToBytes r (Nat.le_of_not_lt few)
    rw [if_neg few, if_neg few, ← behind]
    rfl

theorem decodeFrom_contents (r : β) : onContents (decodeFrom r) = decode (contents r) := by
  rw [decodeFrom]
  cases split : contents r with
  | nil =>
      have ended : ¬ hasRemaining r = true := fun more => (hasRemaining_iff r).mp more split
      rw [if_neg ended]
      rfl
  | cons first rest =>
      have more : hasRemaining r = true := (hasRemaining_iff r).mpr (by simp [split])
      obtain ⟨after, byte, behind⟩ := getU8_cons split
      rw [if_pos more, byte, decode, ← behind]
      dsimp only
      split
      · rfl
      split
      · exact decodeTail_contents first _ _
      split
      · exact decodeTail_contents first _ _
      · exact decodeTail_contents first _ _

theorem decodeFrom_remaining {r after : β} {x : VarInt} (decoded : decodeFrom r = .ok (x, after)) :
    remaining after < remaining r := by
  have same := decodeFrom_contents r
  rw [decoded] at same
  exact decode_length_lt same.symm

end VarInt

namespace Frame

def decodeFrom (buf : β) : Except VarIntUnexpectedEnd (Frame × β) :=
  match VarInt.decodeFrom buf with
  | .error error => .error error
  | .ok (typ, buf) => .ok (⟨typ⟩, buf)

theorem decodeFrom_contents (buf : β) : onContents (decodeFrom buf) = decode (contents buf) := by
  rw [decodeFrom, decode, ← VarInt.decodeFrom_contents]
  cases VarInt.decodeFrom buf <;> rfl

theorem decodeFrom_remaining {buf after : β} {typ : Frame} (decoded : decodeFrom buf = .ok (typ, after)) :
    remaining after < remaining buf := by
  have same := decodeFrom_contents buf
  rw [decoded] at same
  exact decode_length_lt same.symm

/-- Read one full frame header and return its type plus a limited payload view,
skipping GREASE frames.  A size that `usize` cannot hold is more than remains. -/
def readFrom (buf : β) : Except VarIntUnexpectedEnd (Frame × Take β) :=
  match _typDecoded : decodeFrom buf with
  | .error error => .error error
  | .ok (typ, afterType) =>
      match _sizeDecoded : VarInt.decodeFrom afterType with
      | .error error => .error error
      | .ok (size, buf) =>
          if _short : remaining buf < size.intoInner then .error .unexpectedEnd
          else if typ.isGrease then readFrom (advance buf size.intoInner)
          else .ok (typ, ⟨buf, size.intoInner⟩)
termination_by remaining buf
decreasing_by
  have afterTypeLt := decodeFrom_remaining _typDecoded
  have viewLt := VarInt.decodeFrom_remaining _sizeDecoded
  have skipped := contents_advance buf (Nat.le_of_not_lt _short)
  rw [remaining, skipped, List.length_drop]
  exact lt_of_le_of_lt (Nat.sub_le _ _) (viewLt.trans afterTypeLt)

/-- What a read of a frame says about the bytes of the buffer: the payload and
what the view keeps from the reader. -/
def viewContents (found : Frame × Take β) : (Frame × List UInt8) × List UInt8 :=
  ((found.1, contents found.2), found.2.behind)

theorem read_typ_failed {buf : List UInt8} {error : VarIntUnexpectedEnd} (failed : decode buf = .error error) :
    read buf = .error error := by
  rw [read]
  split
  next => rfl
  next decoded =>
    rw [failed] at decoded
    cases decoded

theorem read_size_failed {buf afterType : List UInt8} {typ : Frame} {error : VarIntUnexpectedEnd}
    (decoded : decode buf = .ok (typ, afterType)) (failed : VarInt.decode afterType = .error error) :
    read buf = .error error := by
  rw [read]
  split
  next => rfl
  next again =>
    rw [decoded] at again
    cases again
    split
    next => rfl
    next found =>
      rw [failed] at found
      cases found

theorem read_header {buf afterType view : List UInt8} {typ : Frame} {size : VarInt}
    (decoded : decode buf = .ok (typ, afterType)) (sized : VarInt.decode afterType = .ok (size, view)) :
    read buf =
      if view.length < size.intoInner then .error .unexpectedEnd
      else if typ.isGrease then read (view.drop size.intoInner)
      else .ok ((typ, view.take size.intoInner), view.drop size.intoInner) := by
  conv_lhs => rw [read]
  split
  next typFailed =>
    rw [decoded] at typFailed
    cases typFailed
  next again =>
    rw [decoded] at again
    cases again
    split
    next failed =>
      rw [sized] at failed
      cases failed
    next found =>
      rw [sized] at found
      cases found
      rfl

/-- The reader leaves in the buffer what the reader on lists returns. -/
theorem readFrom_contents (buf : β) : (readFrom buf).map viewContents = read (contents buf) := by
  fun_induction readFrom buf with
  | case1 buf error failed =>
      rw [read_typ_failed (parsed_error (decodeFrom_contents buf) failed)]
      rfl
  | case2 buf typ afterType decoded error failed =>
      have typParsed := parsed_ok (decodeFrom_contents buf) decoded
      rw [read_size_failed typParsed (parsed_error (VarInt.decodeFrom_contents afterType) failed)]
      rfl
  | case3 buf typ afterType decoded size view sized short =>
      have typParsed := parsed_ok (decodeFrom_contents buf) decoded
      have sizeParsed := parsed_ok (VarInt.decodeFrom_contents afterType) sized
      rw [remaining] at short
      rw [read_header typParsed sizeParsed, if_pos short]
      rfl
  | case4 buf typ afterType decoded size view sized enough grease ih =>
      have typParsed := parsed_ok (decodeFrom_contents buf) decoded
      have sizeParsed := parsed_ok (VarInt.decodeFrom_contents afterType) sized
      rw [remaining] at enough
      rw [ih, read_header typParsed sizeParsed, if_neg enough, if_pos grease,
        contents_advance view (Nat.le_of_not_lt enough)]
  | case5 buf typ afterType decoded size view sized enough ordinary =>
      have typParsed := parsed_ok (decodeFrom_contents buf) decoded
      have sizeParsed := parsed_ok (VarInt.decodeFrom_contents afterType) sized
      rw [remaining] at enough
      rw [read_header typParsed sizeParsed, if_neg enough, if_neg ordinary]
      rfl

theorem readFrom_run (buf : β) (run : FrameRun) {rest : List UInt8} (split : contents buf = run.bytes ++ rest) :
    ∃ view, readFrom buf = .ok (⟨run.frame.typ⟩, view) ∧ contents view = run.frame.payload ∧
      view.behind = rest := by
  have same := readFrom_contents buf
  rw [split, read_run] at same
  cases found : readFrom buf with
  | error error =>
      rw [found] at same
      cases same
  | ok result =>
      obtain ⟨typ, view⟩ := result
      rw [found] at same
      obtain ⟨frame, behind⟩ := Prod.mk.inj (Except.ok.inj same)
      obtain ⟨rfl, payload⟩ := Prod.mk.inj frame
      exact ⟨view, rfl, payload, behind⟩

theorem run_of_readFrom {buf : β} {typ : Frame} {view : Take β} (found : readFrom buf = .ok (typ, view)) :
    ∃ (run : FrameRun) (rest : List UInt8), contents buf = run.bytes ++ rest := by
  have same := readFrom_contents buf
  rw [found] at same
  obtain ⟨run, _, _, split⟩ := run_of_read same.symm
  exact ⟨run, _, split⟩

/-- On complete GREASE frames and a complete frame behind them, the read returns
that frame, and whoever reads the view, in whatever pieces, gets its payload and
leaves what follows it.  On every other input the read is an error. -/
theorem readFrom_skips (buf : β) :
    (∀ (run : FrameRun) (rest : List UInt8), contents buf = run.bytes ++ rest →
      ∃ view, readFrom buf = .ok (⟨run.frame.typ⟩, view) ∧
        (∃ after, Consumes view run.frame.payload after ∧ contents after = []) ∧
        ∀ after bytes, Consumes view bytes after →
          bytes ++ contents after = run.frame.payload ∧ contents after.inner = contents after ++ rest) ∧
    ((¬ ∃ (run : FrameRun) (rest : List UInt8), contents buf = run.bytes ++ rest) →
      readFrom buf = .error .unexpectedEnd) := by
  constructor
  · intro run rest split
    obtain ⟨view, found, payload, behind⟩ := readFrom_run buf run split
    refine ⟨view, found, ?_, ?_⟩
    · rw [← payload]
      exact consumes_all view
    · intro after bytes consumed
      constructor
      · rw [consumed.split, payload]
      · rw [after.contents_inner, Take.behind_consumes consumed, behind]
  · intro other
    cases found : readFrom buf with
    | error error => rfl
    | ok result => exact absurd (run_of_readFrom found) other

end Frame

end Webtrans.Proto
