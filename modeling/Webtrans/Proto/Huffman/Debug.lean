import Webtrans.Data.Checked
import Webtrans.Proto.Huffman.Decode

namespace Webtrans.Proto.Huffman.Debug

open Webtrans.Data Checked

/-! The string decoder in a build that panics on overflow
(`webtrans-proto/src/huffman.rs`).

Casts and the bits that a shift drops do not overflow. -/

def forwards (w : BitWindow) (step : UInt32) : Except Panic BitWindow := do
  let bit ← add w.bit w.count
  let byte ← add w.byte (bit / 8)
  .ok { byte, bit := bit % 8, count := step }

def oppositeBitWindow (w : BitWindow) : Except Panic BitWindow := do
  let count ← sub 8 (w.bit % 8)
  .ok { w with count }

/-- `none` is the source's `Err(())`. -/
def readBits (src : List UInt8) (byteOffset bitOffset len : UInt32) : Except Panic (Option UInt8) :=
  if len = 0 ∨ len > 8 then .ok none
  else do
    let limit ← mul (UInt32.ofNat src.length) 8
    let start ← mul byteOffset 8
    let start ← add start bitOffset
    let stop ← add start len
    if limit < stop then .ok none
    else
      let byteOffset ← add byteOffset (bitOffset / 8)
      let whole ← mul (bitOffset / 8) 8
      let bitOffset ← sub bitOffset whole
      let last ← add bitOffset len
      if last ≤ 8 then
        let byte ← index src byteOffset.toNat
        let shifted ← shl8 byte bitOffset
        let back ← sub 8 len
        let value ← shr8 shifted back
        .ok (some value)
      else
        let first ← index src byteOffset.toNat
        let result ← shl16 first.toUInt16 8
        let second ← index src (byteOffset.toNat + 1)
        let shifted ← shl16 (result ||| second.toUInt16) bitOffset
        let back ← sub 16 len
        let value ← shr16 shifted back
        .ok (some value.toUInt8)

def checkEof (bitPos : BitWindow) (input : List UInt8) :
    Except Panic (Except HuffmanError (Option UInt32)) := do
  let behind ← add bitPos.byte 1
  match compare behind.toNat input.length with
  | .gt => .ok (.ok none)
  | .eq =>
      let side ← oppositeBitWindow bitPos
      let rest ← readBits input side.byte side.bit side.count
      match rest with
      | none => .ok (.error (.missingBits side))
      | some rest =>
          let amount ← sub side.count 1
          let shifted ← shl16 2 amount
          let filler ← sub16 shifted 1
          let eofFiller := filler.toUInt8
          if rest &&& eofFiller = eofFiller then .ok (.ok none) else .ok (.error (.missingBits bitPos))
  | .lt => .ok (.error (.missingBits bitPos))

def fetchValue (bitPos : BitWindow) (input : List UInt8) :
    Except Panic (Except HuffmanError (Option UInt32)) := do
  let read ← readBits input bitPos.byte bitPos.bit bitPos.count
  match read with
  | some value => .ok (.ok (some value.toUInt32))
  | none => checkEof bitPos input

def decodeNext (decoder : HuffmanDecoder) (bitPos : BitWindow) (input : List UInt8) :
    Except Panic (Except HuffmanError (Option (UInt8 × BitWindow))) := do
  let bitPos ← forwards bitPos (UInt32.ofNat decoder.lookup)
  let fetched ← fetchValue bitPos input
  match fetched with
  | .error error => .ok (.error error)
  | .ok none => .ok (.ok none)
  | .ok (some value) =>
      match _found : decoder.table[value.toNat]? with
      | none => .ok (.error (.unhandled bitPos value.toNat))
      | some (.sym x) => .ok (.ok (some (x, bitPos)))
      | some (.subtable d) => decodeNext d bitPos input
termination_by sizeOf decoder
decreasing_by exact TableDecoder.sizeOf_subtable_lt _found

theorem forwards_release (w : BitWindow) (step : UInt32) :
    Ensures (forwards w step) fun after => after = w.forwards step := by
  rw [forwards]
  iterate 2 apply Ensures.wraps
  exact .ok rfl

theorem oppositeBitWindow_release (w : BitWindow) :
    Ensures (oppositeBitWindow w) fun side => side = w.oppositeBitWindow := by
  rw [oppositeBitWindow]
  apply Ensures.wraps
  exact .ok rfl

def readResult : Option UInt8 → ReadBits
  | none => .err
  | some value => .ok value

theorem readBits_release (src : List UInt8) (byteOffset bitOffset len : UInt32) :
    Ensures (readBits src byteOffset bitOffset len) fun read =>
      Huffman.readBits src byteOffset bitOffset len = readResult read := by
  rw [readBits]
  split
  case isTrue refused =>
    apply Ensures.ok
    rw [Huffman.readBits, if_pos (by tauto)]
    rfl
  case isFalse accepted =>
    push Not at accepted
    iterate 4 apply Ensures.wraps
    split
    case isTrue short =>
      apply Ensures.ok
      rw [Huffman.readBits, if_pos (.inr (.inr short))]
      rfl
    case isFalse enough =>
      have passed : ¬ (len = 0 ∨ len > 8 ∨ UInt32.ofNat src.length * 8 < byteOffset * 8 + bitOffset + len) := by
        simp [accepted, enough]
      iterate 4 apply Ensures.wraps
      rw [Huffman.readBits, if_neg passed]
      dsimp only
      split
      case isTrue =>
        apply Ensures.index
        intro byte found
        iterate 3 apply Ensures.wraps
        apply Ensures.ok
        rw [found]
        rfl
      case isFalse =>
        apply Ensures.index
        intro first foundFirst
        apply Ensures.wraps
        apply Ensures.index
        intro second foundSecond
        iterate 3 apply Ensures.wraps
        apply Ensures.ok
        rw [foundFirst, foundSecond]
        rfl

theorem checkEof_release (bitPos : BitWindow) (input : List UInt8) :
    Ensures (checkEof bitPos input) fun ended => Huffman.checkEof bitPos input = ended := by
  rw [checkEof]
  apply Ensures.wraps
  rw [Huffman.checkEof]
  cases compare (bitPos.byte + 1).toNat input.length with
  | gt => exact .ok rfl
  | lt => exact .ok rfl
  | eq =>
      refine .bind (oppositeBitWindow_release bitPos) ?_
      intro side same
      subst same
      refine .bind (readBits_release input _ _ _) ?_
      intro rest read
      dsimp only
      rw [read]
      cases rest with
      | none => exact .ok rfl
      | some rest =>
          dsimp only [readResult]
          iterate 3 apply Ensures.wraps
          split
          · exact .ok rfl
          · exact .ok rfl

theorem fetchValue_release (bitPos : BitWindow) (input : List UInt8) :
    Ensures (fetchValue bitPos input) fun fetched => Huffman.fetchValue bitPos input = fetched := by
  rw [fetchValue, Huffman.fetchValue]
  refine .bind (readBits_release input _ _ _) ?_
  intro value read
  rw [read]
  cases value with
  | none => exact checkEof_release bitPos input
  | some value => exact .ok rfl

theorem decodeNext_release (decoder : HuffmanDecoder) (bitPos : BitWindow) (input : List UInt8) :
    Ensures (decodeNext decoder bitPos input) fun decoded =>
      Huffman.decodeNext decoder bitPos input = decoded := by
  induction size : sizeOf decoder using Nat.strong_induction_on generalizing decoder bitPos with
  | h size ih =>
      subst size
      rw [decodeNext]
      refine .bind (forwards_release bitPos _) ?_
      intro after same
      subst same
      refine .bind (fetchValue_release _ input) ?_
      intro fetched release
      cases fetched with
      | error error =>
          rw [Huffman.decodeNext, release]
          exact .ok rfl
      | ok value =>
          cases value with
          | none =>
              rw [Huffman.decodeNext, release]
              exact .ok rfl
          | some value =>
              rw [decodeNext_value release]
              dsimp only
              split
              next found =>
                rw [found]
                exact .ok rfl
              next found =>
                rw [found]
                exact .ok rfl
              next inner found =>
                rw [found]
                exact ih _ (TableDecoder.sizeOf_subtable_lt found) inner _ rfl

/-- The bit that a window reads next. -/
def position (w : BitWindow) : Nat :=
  w.byte.toNat * 8 + w.bit.toNat + w.count.toNat

theorem forwards_moves (w : BitWindow) (step : UInt32) :
    Ensures (forwards w step) fun after =>
      position after = position w + step.toNat ∧ after.bit.toNat < 8 ∧ after.count = step := by
  rw [forwards]
  apply Ensures.guarded
  intro bitFits
  apply Ensures.guarded
  intro byteFits
  apply Ensures.ok
  simp only [position, UInt32.toNat_add, UInt32.toNat_div, UInt32.toNat_mod,
    UInt32.reduceToNat] at bitFits byteFits ⊢
  exact ⟨by omega, by omega, trivial⟩

theorem readBits_within (src : List UInt8) (byteOffset bitOffset len : UInt32) :
    Ensures (readBits src byteOffset bitOffset len) fun read => ∀ value, read = some value →
      byteOffset.toNat * 8 + bitOffset.toNat + len.toNat ≤ 8 * src.length := by
  rw [readBits]
  split
  case isTrue =>
    apply Ensures.ok
    simp
  case isFalse =>
    apply Ensures.wraps
    apply Ensures.guarded
    intro startFits
    apply Ensures.guarded
    intro offsetFits
    apply Ensures.guarded
    intro stopFits
    split
    case isTrue =>
      apply Ensures.ok
      simp
    case isFalse enough =>
      apply Ensures.always
      intro read value _
      simp only [UInt32.lt_iff_toNat_lt, UInt32.toNat_add, UInt32.toNat_mul, UInt32.toNat_ofNat',
        UInt32.reduceToNat] at *
      omega

theorem fetchValue_within (w : BitWindow) (input : List UInt8) :
    Ensures (fetchValue w input) fun fetched => ∀ value, fetched = .ok (some value) →
      position w ≤ 8 * input.length := by
  rw [fetchValue]
  refine .bind (readBits_within input _ _ _) ?_
  intro read within
  cases read with
  | none =>
      intro ended checked value same
      have release := checkEof_release w input ended checked
      exact absurd (release.trans same) (checkEof_ne_some w input value)
  | some value => exact .ok fun _ _ => within value rfl

/-- The window stands in front of the bits that are left. -/
structure Inside (input : List UInt8) (w : BitWindow) : Prop where
  bit : w.bit.toNat < 8
  count : w.count.toNat ≤ 8
  inside : position w ≤ 8 * input.length

variable {input : List UInt8} {w : BitWindow} {decoder : HuffmanDecoder}

/-- A window that moves to its next lookup, and that is inside when the lookup
finds its bits. -/
theorem forwards_lookup (checked : decoder.all widths = true) (input : List UInt8) (w : BitWindow) :
    Ensures (forwards w (UInt32.ofNat decoder.lookup)) fun middle =>
      position middle = position w + decoder.lookup ∧ middle.bit.toNat < 8 ∧
        (position middle ≤ 8 * input.length → Inside input middle) := by
  have byteful := (widths_bounds checked).2
  have width : (UInt32.ofNat decoder.lookup).toNat = decoder.lookup := by
    rw [UInt32.toNat_ofNat']
    omega
  intro middle moved
  obtain ⟨ahead, inByte, count⟩ := forwards_moves w _ middle moved
  rw [width] at ahead
  exact ⟨ahead, inByte, fun within => ⟨inByte, by rw [count, width]; exact byteful, within⟩⟩

/-- Every symbol takes the bits of its first lookup at least, all of them in the
input. -/
theorem decodeNext_moves (checked : decoder.all widths = true) (w : BitWindow) :
    Ensures (decodeNext decoder w input) fun decoded => ∀ x after, decoded = .ok (some (x, after)) →
      position w + decoder.lookup ≤ position after ∧ Inside input after := by
  induction size : sizeOf decoder using Nat.strong_induction_on generalizing decoder w with
  | h size ih =>
      subst size
      rw [decodeNext]
      refine .bind (forwards_lookup checked input w) ?_
      intro middle moved
      obtain ⟨ahead, _, insideMiddle⟩ := moved
      refine .bind (fetchValue_within middle input) ?_
      intro fetched within
      cases fetched with
      | error error =>
          apply Ensures.ok
          simp
      | ok value =>
          cases value with
          | none =>
              apply Ensures.ok
              simp
          | some value =>
              have inside := insideMiddle (within value rfl)
              dsimp only
              split
              next =>
                apply Ensures.ok
                simp
              next x found =>
                apply Ensures.ok
                intro y after same
                cases same
                exact ⟨ahead.ge, inside⟩
              next inner found =>
                intro decoded returned x after same
                have later := ih _ (TableDecoder.sizeOf_subtable_lt found)
                  (TableDecoder.all_subtable checked found) middle rfl
                obtain ⟨further, insideAfter⟩ := later decoded returned x after same
                exact ⟨by omega, insideAfter⟩

theorem forwards_completes (inside : Inside input w) (small : input.length < 2 ^ 29) (step : UInt32) :
    Completes (forwards w step) := by
  obtain ⟨bit, count, within⟩ := inside
  rw [position] at within
  rw [forwards]
  apply Completes.guarded (by omega)
  apply Completes.guarded
  · simp only [UInt32.toNat_add, UInt32.toNat_div, UInt32.reduceToNat]
    omega
  · exact .ok _

theorem oppositeBitWindow_completes (w : BitWindow) : Completes (oppositeBitWindow w) := by
  rw [oppositeBitWindow]
  apply Completes.guarded
  · simp only [UInt32.toNat_mod, UInt32.reduceToNat]
    omega
  · exact .ok _

/-- The offsets of a read, once whole bytes are taken out of its bit offset. -/
theorem offsets_toNat {byteOffset bitOffset : UInt32} (fits : byteOffset.toNat * 8 + bitOffset.toNat < 2 ^ 32) :
    (bitOffset / 8 * 8).toNat = bitOffset.toNat / 8 * 8 ∧
      (bitOffset - bitOffset / 8 * 8).toNat = bitOffset.toNat % 8 ∧
      (byteOffset + bitOffset / 8).toNat = byteOffset.toNat + bitOffset.toNat / 8 := by
  have whole : (bitOffset / 8 * 8).toNat = bitOffset.toNat / 8 * 8 := by
    simp only [UInt32.toNat_mul, UInt32.toNat_div, UInt32.reduceToNat]
    omega
  refine ⟨whole, ?_, ?_⟩
  · rw [UInt32.toNat_sub_of_le _ _ (UInt32.le_iff_toNat_le.mpr (by omega)), whole]
    omega
  · simp only [UInt32.toNat_add, UInt32.toNat_div, UInt32.reduceToNat]
    omega

theorem accepted_len {len : UInt32} (accepted : ¬ (len = 0 ∨ len > 8)) : 0 < len.toNat ∧ len.toNat ≤ 8 := by
  simp only [gt_iff_lt, UInt32.lt_iff_toNat_lt, ← UInt32.toNat_inj, UInt32.reduceToNat] at accepted
  omega

/-- Where 32 bits hold the length and the end of the read, every index is in the
slice and every shift below its width. -/
theorem readBits_completes {src : List UInt8} (small : src.length < 2 ^ 29) {byteOffset bitOffset len : UInt32}
    (fits : byteOffset.toNat * 8 + bitOffset.toNat + len.toNat < 2 ^ 32) :
    Completes (readBits src byteOffset bitOffset len) := by
  have size : (UInt32.ofNat src.length).toNat = src.length := by
    rw [UInt32.toNat_ofNat']
    omega
  obtain ⟨whole, inByte, inSlice⟩ := @offsets_toNat byteOffset bitOffset (by omega)
  rw [readBits]
  split
  case isTrue => exact .ok none
  case isFalse accepted =>
    obtain ⟨positive, byteful⟩ := accepted_len accepted
    have back (width : UInt32) (enough : 8 ≤ width.toNat) : (width - len).toNat = width.toNat - len.toNat :=
      UInt32.toNat_sub_of_le _ _ (UInt32.le_iff_toNat_le.mpr (by omega))
    apply Completes.guarded (by rw [size]; simp only [UInt32.reduceToNat]; omega)
    apply Completes.guarded (by simp only [UInt32.reduceToNat]; omega)
    apply Completes.guarded
    · simp only [UInt32.toNat_mul, UInt32.reduceToNat]
      omega
    apply Completes.guarded
    · simp only [UInt32.toNat_add, UInt32.toNat_mul, UInt32.reduceToNat]
      omega
    split
    case isTrue => exact .ok none
    case isFalse enough =>
      have within : byteOffset.toNat * 8 + bitOffset.toNat + len.toNat ≤ 8 * src.length := by
        simp only [UInt32.lt_iff_toNat_lt, UInt32.toNat_add, UInt32.toNat_mul, size, UInt32.reduceToNat] at enough
        omega
      apply Completes.guarded (by simp only [UInt32.toNat_div, UInt32.reduceToNat]; omega)
      apply Completes.guarded (by simp only [UInt32.toNat_div, UInt32.reduceToNat]; omega)
      apply Completes.guarded (by omega)
      apply Completes.guarded (by omega)
      split
      case isTrue =>
        apply Completes.index (by omega)
        intro byte
        apply Completes.guarded (by omega)
        apply Completes.guarded (by simp only [UInt32.reduceToNat]; omega)
        apply Completes.guarded (by rw [back 8 (by decide)]; simp only [UInt32.reduceToNat]; omega)
        exact .ok _
      case isFalse double =>
        have spans : 8 < bitOffset.toNat % 8 + len.toNat := by
          rw [UInt32.not_le, UInt32.lt_iff_toNat_lt, UInt32.toNat_add, inByte] at double
          simp only [UInt32.reduceToNat] at double
          omega
        apply Completes.index (by omega)
        intro first
        apply Completes.guarded (by decide)
        apply Completes.index (by omega)
        intro second
        apply Completes.guarded (by omega)
        apply Completes.guarded (by simp only [UInt32.reduceToNat]; omega)
        apply Completes.guarded (by rw [back 16 (by decide)]; simp only [UInt32.reduceToNat]; omega)
        exact .ok _

theorem filler_positive {amount : UInt32} (small : amount.toNat ≤ 7) :
    1 ≤ ((2 : UInt16) <<< amount.toUInt16).toNat := by
  have width : amount.toUInt16.toNat % 16 = amount.toNat := by
    rw [UInt32.toNat_toUInt16]
    omega
  have positive : 0 < 2 ^ amount.toNat := Nat.two_pow_pos _
  have bound : 2 ^ amount.toNat ≤ 2 ^ 7 := Nat.pow_le_pow_right (by decide) small
  rw [UInt16.toNat_shiftLeft, width, Nat.shiftLeft_eq]
  simp only [UInt16.reduceToNat]
  omega

theorem checkEof_completes (inByte : w.bit.toNat < 8) (short : w.byte.toNat + 1 < 2 ^ 32)
    (small : input.length < 2 ^ 29) : Completes (checkEof w input) := by
  have behind : (w.byte + 1).toNat = w.byte.toNat + 1 := by
    simp only [UInt32.toNat_add, UInt32.reduceToNat]
    omega
  have side : (8 - w.bit % 8).toNat = 8 - w.bit.toNat := by
    have less : w.bit % 8 ≤ 8 := by
      simp only [UInt32.le_iff_toNat_le, UInt32.toNat_mod, UInt32.reduceToNat]
      omega
    rw [UInt32.toNat_sub_of_le _ _ less, UInt32.toNat_mod]
    simp only [UInt32.reduceToNat]
    omega
  rw [checkEof]
  apply Completes.guarded short
  cases order : compare (w.byte + 1).toNat input.length with
  | gt => exact .ok _
  | lt => exact .ok _
  | eq =>
      have last := Nat.compare_eq_eq.mp order
      refine .bind (oppositeBitWindow_completes w) (oppositeBitWindow_release w) ?_
      intro window same
      subst same
      have fits : w.byte.toNat * 8 + w.bit.toNat + (8 - w.bit % 8).toNat < 2 ^ 32 := by omega
      refine .bind (readBits_completes small fits) (.always fun _ => trivial) ?_
      intro rest _
      cases rest with
      | none => exact .ok _
      | some rest =>
          have amount : (8 - w.bit % 8 - 1).toNat = 7 - w.bit.toNat := by
            rw [UInt32.toNat_sub_of_le _ _ (UInt32.le_iff_toNat_le.mpr (by simp only [UInt32.reduceToNat]; omega)),
              side]
            simp only [UInt32.reduceToNat]
            omega
          apply Completes.guarded (by simp only [BitWindow.oppositeBitWindow, UInt32.reduceToNat]; omega)
          apply Completes.guarded (by simp only [BitWindow.oppositeBitWindow]; omega)
          apply Completes.guarded (filler_positive (by simp only [BitWindow.oppositeBitWindow]; omega))
          dsimp only
          split
          · exact .ok _
          · exact .ok _

theorem fetchValue_completes (inByte : w.bit.toNat < 8) (fits : position w < 2 ^ 32)
    (small : input.length < 2 ^ 29) : Completes (fetchValue w input) := by
  rw [fetchValue]
  refine .bind (readBits_completes small fits) (.always fun _ => trivial) ?_
  intro read _
  cases read with
  | none =>
      rw [position] at fits
      exact checkEof_completes inByte (by omega) small
  | some value => exact .ok _

theorem decodeNext_completes (checked : decoder.all widths = true) (inside : Inside input w)
    (small : input.length < 2 ^ 29 - 1) : Completes (decodeNext decoder w input) := by
  induction size : sizeOf decoder using Nat.strong_induction_on generalizing decoder w with
  | h size ih =>
      subst size
      have byteful := (widths_bounds checked).2
      have within := inside.inside
      rw [decodeNext]
      refine .bind (forwards_completes inside (by omega) _) (forwards_lookup checked input w) ?_
      intro middle moved
      obtain ⟨ahead, inByte, insideMiddle⟩ := moved
      refine .bind (fetchValue_completes inByte (by omega) (by omega)) (fetchValue_within middle input) ?_
      intro fetched read
      cases fetched with
      | error error => exact .ok _
      | ok value =>
          cases value with
          | none => exact .ok _
          | some value =>
              have insideNext := insideMiddle (read value rfl)
              dsimp only
              split
              next => exact .ok _
              next => exact .ok _
              next inner found =>
                exact ih _ (TableDecoder.sizeOf_subtable_lt found) (TableDecoder.all_subtable checked found)
                  insideNext rfl

/-- `DecodeIter::next`. -/
def decodeIterNext (content : List UInt8) (bitPos : BitWindow) :
    Except Panic (Except HuffmanError (Option (UInt8 × BitWindow))) :=
  decodeNext hpackString bitPos content

theorem moves_on {content : List UInt8} {w after : BitWindow} {x : UInt8}
    (yielded : decodeIterNext content w = .ok (.ok (some (x, after)))) :
    8 * content.length - position after < 8 * content.length - position w := by
  obtain ⟨moved, inside⟩ := decodeNext_moves hpackString_widths w _ yielded x after rfl
  have within := inside.inside
  have positive := (widths_bounds hpackString_widths).1
  omega

/-- The symbols that `hpack_decode` yields up to its end or its first error,
each with the window behind it. -/
def iterate (content : List UInt8) (w : BitWindow) : List (UInt8 × BitWindow) × Stop HuffmanError :=
  drain (decodeIterNext content) (fun w => 8 * content.length - position w) moves_on w

/-- Where nothing panics, the release build collects the same symbols. -/
theorem hpackDecodeFrom_iterate (content : List UInt8) (w : BitWindow) {result : Except HuffmanError (List UInt8)}
    (finished : (iterate content w).2.result ((iterate content w).1.map Prod.fst) = some result) :
    hpackDecodeFrom content w = result := by
  revert result
  apply drain_induction (motive := fun w items stop => ∀ {result}, stop.result (items.map Prod.fst) = some result →
    hpackDecodeFrom content w = result)
  case panicked =>
    intro w panic found result finished
    cases finished
  case failed =>
    intro w error found result finished
    cases finished
    have release := decodeNext_release hpackString w content _ found
    rw [hpackDecodeFrom, collect_eq, Huffman.decodeIterNext, release]
  case ended =>
    intro w found result finished
    cases finished
    have release := decodeNext_release hpackString w content _ found
    rw [hpackDecodeFrom, collect_eq, Huffman.decodeIterNext, release]
    rfl
  case item =>
    intro w x after items stop found ih result finished
    have release := decodeNext_release hpackString w content _ found
    rw [hpackDecodeFrom, collect_eq, Huffman.decodeIterNext, release]
    dsimp only
    cases stop with
    | panicked panic => cases finished
    | ended =>
        cases finished
        have later : hpackDecodeFrom content after = .ok (items.map Prod.fst) := ih rfl
        rw [hpackDecodeFrom] at later
        rw [later]
        rfl
    | failed error =>
        cases finished
        have later : hpackDecodeFrom content after = .error error := ih rfl
        rw [hpackDecodeFrom] at later
        rw [later]
        rfl

/-- What a run does: it takes five bits at least for a symbol, none of them
twice, stays in the input, and does not panic. -/
structure Bounded (content : List UInt8) (w : BitWindow) (symbols : List (UInt8 × BitWindow))
    (stop : Stop HuffmanError) : Prop where
  count : 5 * symbols.length + position w ≤ 8 * content.length
  advances : List.IsChain (· < ·) (position w :: symbols.map fun symbol => position symbol.2)
  safe : ∀ panic, stop ≠ .panicked panic

theorem Bounded.stops {content : List UInt8} (inside : Inside content w) {stop : Stop HuffmanError}
    (safe : ∀ panic, stop ≠ .panicked panic) : Bounded content w [] stop :=
  ⟨by simpa using inside.inside, .singleton _, safe⟩

theorem iterate_bounded {content : List UInt8} (small : content.length < 2 ^ 29 - 1) (inside : Inside content w) :
    Bounded content w (iterate content w).1 (iterate content w).2 := by
  revert inside
  apply drain_induction (motive := fun w items stop => Inside content w → Bounded content w items stop)
  case panicked =>
    intro w panic found inside
    obtain ⟨decoded, completed⟩ := decodeNext_completes hpackString_widths inside small
    cases found.symm.trans completed
  case failed =>
    intro w error _ inside
    exact .stops inside (by simp)
  case ended =>
    intro w _ inside
    exact .stops inside (by simp)
  case item =>
    intro w x after items stop found ih inside
    obtain ⟨moved, insideAfter⟩ := decodeNext_moves hpackString_widths w _ found x after rfl
    have later := ih insideAfter
    have five : hpackString.lookup = 5 := rfl
    rw [five] at moved
    have count := later.count
    have forward : position w < position after := by omega
    constructor
    · simp only [List.length_cons]
      omega
    · simp only [List.map_cons, List.isChain_cons_cons]
      exact ⟨forward, later.advances⟩
    · exact later.safe

/-- On a payload within the limit of a CONNECT frame the decoder yields at most
a symbol for five bits, each behind the one before, and stops: no index leaves
the payload and no arithmetic overflows. -/
theorem iterate_within_limit (content : List UInt8) (small : content.length ≤ 65536) :
    (iterate content {}).1.length ≤ 8 * content.length / 5 ∧
      List.IsChain (· < ·) (position {} :: (iterate content {}).1.map fun symbol => position symbol.2) ∧
      ∀ panic, (iterate content {}).2 ≠ .panicked panic := by
  have start : Inside content {} := ⟨by decide, by decide, Nat.zero_le _⟩
  have bounded := iterate_bounded (by omega) start
  have count := bounded.count
  refine ⟨?_, bounded.advances, bounded.safe⟩
  omega

theorem iterate_within_limit_two_bytes :
    (iterate [0x1f, 0xff] {}).1.length ≤ 3 ∧
      List.IsChain (· < ·) (position {} :: (iterate [0x1f, 0xff] {}).1.map fun symbol => position symbol.2) ∧
      ∀ panic, (iterate [0x1f, 0xff] {}).2 ≠ .panicked panic :=
  iterate_within_limit [0x1f, 0xff] (by decide)

end Webtrans.Proto.Huffman.Debug
