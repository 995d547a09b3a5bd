import Webtrans.Data.Utf8
import Webtrans.Proto.Huffman.Tables
import Mathlib.Data.Nat.Basic

namespace Webtrans.Proto

open Webtrans.Data

/-! The Huffman string decoder (`webtrans-proto/src/huffman.rs`), in the
wrapping 32-bit arithmetic of the source. -/

structure BitWindow where
  byte : UInt32 := 0
  bit : UInt32 := 0
  count : UInt32 := 0
deriving DecidableEq, Repr

namespace BitWindow

def forwards (w : BitWindow) (step : UInt32) : BitWindow :=
  let bit := w.bit + w.count
  { byte := w.byte + bit / 8, bit := bit % 8, count := step }

def oppositeBitWindow (w : BitWindow) : BitWindow :=
  { w with count := 8 - w.bit % 8 }

def next (w : BitWindow) : UInt32 :=
  w.byte * 8 + w.bit + w.count

end BitWindow

/-- The decoder's errors.  `panicked` is none of the source's: there the
thread ends on an index out of range. -/
inductive HuffmanError where
  | missingBits (window : BitWindow)
  | unhandled (window : BitWindow) (value : Nat)
  | panicked
deriving DecidableEq, Repr

namespace Huffman

inductive ReadBits where
  | ok (value : UInt8)
  | err
  | panicked
deriving DecidableEq, Repr

/-- Read `len` bits from the `src` slice at the specified position.  Never read
more than 8 bits at a time. -/
def readBits (src : List UInt8) (byteOffset bitOffset len : UInt32) : ReadBits :=
  if len = 0 ∨ len > 8 ∨ UInt32.ofNat src.length * 8 < byteOffset * 8 + bitOffset + len then .err
  else
    let byteOffset := byteOffset + bitOffset / 8
    let bitOffset := bitOffset - bitOffset / 8 * 8
    if bitOffset + len ≤ 8 then
      match src[byteOffset.toNat]? with
      | none => .panicked
      | some byte => .ok ((byte <<< bitOffset.toUInt8) >>> (8 - len).toUInt8)
    else
      match src[byteOffset.toNat]?, src[byteOffset.toNat + 1]? with
      | some first, some second =>
          let result := first.toUInt16 <<< 8
          let result := result ||| second.toUInt16
          .ok ((result <<< bitOffset.toUInt16) >>> (16 - len).toUInt16).toUInt8
      | _, _ => .panicked

def checkEof (bitPos : BitWindow) (input : List UInt8) : Except HuffmanError (Option UInt32) :=
  match compare (bitPos.byte + 1).toNat input.length with
  | .gt => .ok none
  | .eq =>
      let side := bitPos.oppositeBitWindow
      match readBits input side.byte side.bit side.count with
      | .err => .error (.missingBits side)
      | .panicked => .error .panicked
      | .ok rest =>
          let eofFiller := ((2 : UInt16) <<< (side.count - 1).toUInt16 - 1).toUInt8
          if rest &&& eofFiller = eofFiller then .ok none else .error (.missingBits bitPos)
  | .lt => .error (.missingBits bitPos)

def fetchValue (bitPos : BitWindow) (input : List UInt8) : Except HuffmanError (Option UInt32) :=
  match readBits input bitPos.byte bitPos.bit bitPos.count with
  | .ok value => .ok (some value.toUInt32)
  | .err => checkEof bitPos input
  | .panicked => .error .panicked

/-- Decode one symbol.  The window moves with it. -/
def decodeNext (decoder : HuffmanDecoder) (bitPos : BitWindow) (input : List UInt8) :
    Except HuffmanError (Option (UInt8 × BitWindow)) :=
  let bitPos := bitPos.forwards (UInt32.ofNat decoder.lookup)
  match fetchValue bitPos input with
  | .error error => .error error
  | .ok none => .ok none
  | .ok (some value) =>
      match _found : decoder.table[value.toNat]? with
      | none => .error (.unhandled bitPos value.toNat)
      | some (.sym x) => .ok (some (x, bitPos))
      | some (.subtable d) => decodeNext d bitPos input
termination_by sizeOf decoder
decreasing_by exact TableDecoder.sizeOf_subtable_lt _found

theorem decodeNext_value {decoder : HuffmanDecoder} {bitPos : BitWindow} {input : List UInt8} {value : UInt32}
    (fetched : fetchValue (bitPos.forwards (UInt32.ofNat decoder.lookup)) input = .ok (some value)) :
    decodeNext decoder bitPos input =
      match decoder.table[value.toNat]? with
      | none => .error (.unhandled (bitPos.forwards (UInt32.ofNat decoder.lookup)) value.toNat)
      | some (.sym x) => .ok (some (x, bitPos.forwards (UInt32.ofNat decoder.lookup)))
      | some (.subtable d) => decodeNext d (bitPos.forwards (UInt32.ofNat decoder.lookup)) input := by
  rw [decodeNext, fetched]
  dsimp only
  split <;> rename_i found <;> rw [found]

def bitLimit (input : List UInt8) : UInt32 :=
  UInt32.ofNat input.length * 8

/-- The widths that occur: a full byte is only looked up in the empty table
behind the EOS code. -/
def widths (lookup : Nat) (isEmpty : Bool) : Bool :=
  decide (0 < lookup) && (decide (lookup ≤ 7) || lookup == 8 && isEmpty)

theorem hpackString_widths : hpackString.all widths = true := by
  decide +kernel

theorem widths_bounds {decoder : HuffmanDecoder} (checked : decoder.all widths = true) :
    0 < decoder.lookup ∧ decoder.lookup ≤ 8 := by
  have width := TableDecoder.check_of_all checked
  simp only [widths, Bool.and_eq_true, Bool.or_eq_true, decide_eq_true_eq, beq_iff_eq] at width
  omega

theorem lookup_le_of_found {decoder : HuffmanDecoder} {index : Nat} {entry : TableEntry UInt8}
    (checked : decoder.all widths = true) (found : decoder.table[index]? = some entry) :
    decoder.lookup ≤ 7 := by
  have width := TableDecoder.check_of_all checked
  simp only [widths, Bool.and_eq_true, Bool.or_eq_true, decide_eq_true_eq, beq_iff_eq,
    List.isEmpty_iff] at width
  refine width.2.resolve_right ?_
  intro full
  exact List.ne_nil_of_mem (List.mem_of_getElem? found) full.2

theorem forwards_position (w : BitWindow) (step : UInt32) :
    (w.forwards step).byte * 8 + (w.forwards step).bit = w.next := by
  apply UInt32.toNat_inj.mp
  simp only [BitWindow.forwards, BitWindow.next, UInt32.toNat_add, UInt32.toNat_mul, UInt32.toNat_div,
    UInt32.toNat_mod, UInt32.reduceToNat]
  omega

theorem forwards_next (w : BitWindow) (step : UInt32) : (w.forwards step).next = w.next + step := by
  rw [← forwards_position w step]
  rfl

theorem next_le_of_readBits {input : List UInt8} {w : BitWindow} {value : UInt8}
    (read : readBits input w.byte w.bit w.count = .ok value) : w.next ≤ bitLimit input := by
  rw [readBits] at read
  split at read
  · cases read
  · rename_i inside
    push Not at inside
    exact UInt32.not_lt.mp inside.2.2

theorem checkEof_ne_some (w : BitWindow) (input : List UInt8) (value : UInt32) :
    checkEof w input ≠ .ok (some value) := by
  intro ended
  rw [checkEof] at ended
  split at ended
  · cases ended
  · dsimp only at ended
    split at ended
    · cases ended
    · cases ended
    · split at ended <;> cases ended
  · cases ended

theorem readBits_of_fetchValue {input : List UInt8} {w : BitWindow} {value : UInt32}
    (fetched : fetchValue w input = .ok (some value)) :
    ∃ byte, readBits input w.byte w.bit w.count = .ok byte ∧ value = byte.toUInt32 := by
  rw [fetchValue] at fetched
  split at fetched
  · rename_i byte read
    cases fetched
    exact ⟨byte, read, rfl⟩
  · exact absurd fetched (checkEof_ne_some w input value)
  · cases fetched

theorem forwards_advances {lookup : Nat} (positive : 0 < lookup) (small : lookup ≤ 7) {w : BitWindow}
    {input : List UInt8} (before : w.next ≤ bitLimit input) :
    w.next < (w.forwards (UInt32.ofNat lookup)).next := by
  rw [forwards_next]
  simp only [bitLimit, UInt32.le_iff_toNat_le, UInt32.lt_iff_toNat_lt, UInt32.toNat_add,
    UInt32.toNat_mul, UInt32.toNat_ofNat', UInt32.reduceToNat] at before ⊢
  omega

theorem decodeNext_advances {decoder : HuffmanDecoder} (checked : decoder.all widths = true)
    {w after : BitWindow} {input : List UInt8} {x : UInt8}
    (decoded : decodeNext decoder w input = .ok (some (x, after))) :
    after.next ≤ bitLimit input ∧ (w.next ≤ bitLimit input → w.next < after.next) := by
  induction size : sizeOf decoder using Nat.strong_induction_on generalizing decoder w with
  | h size ih =>
      subst size
      rw [decodeNext] at decoded
      split at decoded
      · cases decoded
      · cases decoded
      · rename_i value fetched
        obtain ⟨byte, read, _⟩ := readBits_of_fetchValue fetched
        have inside := next_le_of_readBits read
        have positive := (widths_bounds checked).1
        split at decoded
        · cases decoded
        · rename_i found
          cases decoded
          exact ⟨inside, forwards_advances positive (lookup_le_of_found checked found)⟩
        · rename_i inner found
          obtain ⟨within, later⟩ := ih _ (TableDecoder.sizeOf_subtable_lt found)
            (TableDecoder.all_subtable checked found) decoded rfl
          refine ⟨within, fun before => ?_⟩
          have forward := forwards_advances positive (lookup_le_of_found checked found) before
          exact UInt32.lt_trans forward (later inside)

/-- One item of the source's `DecodeIter`. -/
def decodeIterNext (content : List UInt8) (bitPos : BitWindow) :
    Except HuffmanError (Option (UInt8 × BitWindow)) :=
  decodeNext hpackString bitPos content

/-- The bits in front of a window, with one more step for a window beyond the
input. -/
def distance (input : List UInt8) (w : BitWindow) : Nat :=
  if w.next ≤ bitLimit input then (bitLimit input).toNat - w.next.toNat else (bitLimit input).toNat + 1

theorem distance_lt {w after : BitWindow} {input : List UInt8} {x : UInt8}
    (decoded : decodeIterNext input w = .ok (some (x, after))) :
    distance input after < distance input w := by
  obtain ⟨within, later⟩ := decodeNext_advances hpackString_widths decoded
  unfold distance
  rw [if_pos within]
  split
  · rename_i before
    have forward := later before
    simp only [UInt32.le_iff_toNat_le, UInt32.lt_iff_toNat_lt] at within before forward
    omega
  · omega

/-- The items of an iterator that shrinks, up to its end or its first error. -/
def collect {σ ε α : Type} (next : σ → Except ε (Option (α × σ))) (size : σ → Nat)
    (shrinks : ∀ {state x after}, next state = .ok (some (x, after)) → size after < size state)
    (state : σ) : Except ε (List α) :=
  match _item : next state with
  | .error error => .error error
  | .ok none => .ok []
  | .ok (some (x, after)) =>
      match collect next size shrinks after with
      | .error error => .error error
      | .ok rest => .ok (x :: rest)
termination_by size state
decreasing_by exact shrinks _item

theorem collect_eq {σ ε α : Type} {next : σ → Except ε (Option (α × σ))} {size : σ → Nat}
    (shrinks : ∀ {state x after}, next state = .ok (some (x, after)) → size after < size state)
    (state : σ) :
    collect next size shrinks state =
      match next state with
      | .error error => .error error
      | .ok none => .ok []
      | .ok (some (x, after)) => (collect next size shrinks after).map (x :: ·) := by
  rw [collect]
  split
  next failed => rw [failed]
  next ended => rw [ended]
  next x after item =>
    rw [item]
    dsimp only
    cases collect next size shrinks after <;> rfl

def hpackDecodeFrom (content : List UInt8) (bitPos : BitWindow) : Except HuffmanError (List UInt8) :=
  collect (decodeIterNext content) (distance content) distance_lt bitPos

def hpackDecode (content : List UInt8) : Except HuffmanError (List UInt8) :=
  hpackDecodeFrom content {}

end Huffman

end Webtrans.Proto
