import Mathlib.Data.List.Sort
import Webtrans.Proto.Huffman.Strings

namespace Webtrans.Proto.Huffman

open Webtrans.Data TableDecoder

/-! The HPACK codes and the strings packed from them. -/

/-- The bit path to the symbol. -/
def codeOf (byte : UInt8) : List Bool :=
  match hpackString.codes.find? (·.2 == byte) with
  | some (code, _) => code
  | none => []

def codesOf (text : List UInt8) : List Bool :=
  text.flatMap codeOf

def symbols : List Nat :=
  hpackString.codes.map fun code => code.2.toNat

theorem symbols_sorted : symbols.insertionSort (· ≤ ·) = List.range 256 := by
  decide +kernel

theorem codes_false : (hpackString.codes.all fun code => code.1.contains false) = true := by
  decide +kernel

theorem symbols_perm : symbols.Perm (List.range 256) := by
  rw [← symbols_sorted]
  exact (List.perm_insertionSort _ _).symm

theorem exists_code (byte : UInt8) : ∃ bits, (bits, byte) ∈ hpackString.codes := by
  have listed : byte.toNat ∈ symbols := symbols_perm.mem_iff.mpr (List.mem_range.mpr byte.toNat_lt)
  obtain ⟨⟨bits, symbol⟩, member, same⟩ := List.mem_map.mp listed
  cases UInt8.toNat_inj.mp same
  exact ⟨bits, member⟩

theorem code_unique {left right : List Bool} {byte : UInt8} (leftCode : (left, byte) ∈ hpackString.codes)
    (rightCode : (right, byte) ∈ hpackString.codes) : left = right := by
  have nodup : symbols.Nodup := symbols_perm.nodup_iff.mpr List.nodup_range
  have same := List.inj_on_of_nodup_map nodup leftCode rightCode rfl
  exact congrArg Prod.fst same

/-- Every byte has one code. -/
theorem code_iff (byte : UInt8) (bits : List Bool) :
    Code hpackString bits byte ↔ bits = codeOf byte := by
  have found : (codeOf byte, byte) ∈ hpackString.codes := by
    obtain ⟨bits, member⟩ := exists_code byte
    rw [codeOf]
    split
    next code symbol found =>
      have same := List.find?_some found
      rw [← eq_of_beq same]
      exact List.mem_of_find?_eq_some found
    next missing =>
      have differs := List.find?_eq_none.mp missing _ member
      exact absurd (beq_self_eq_true byte) differs
  constructor
  · intro code
    exact code_unique code.mem_codes found
  · intro same
    exact code_of_mem_codes (same ▸ found)

theorem codeOf_code (byte : UInt8) : Code hpackString (codeOf byte) byte :=
  (code_iff byte _).mpr rfl

theorem false_mem_codeOf (byte : UInt8) : false ∈ codeOf byte := by
  have zero := List.all_eq_true.mp codes_false _ (codeOf_code byte).mem_codes
  simpa only [List.contains_iff_mem] using zero

theorem codeOf_prefix {left right : UInt8} (initial : codeOf left <+: codeOf right) : left = right := by
  obtain ⟨rest, split⟩ := initial
  rw [← List.append_nil (codeOf right)] at split
  exact ((codeOf_code left).unique (codeOf_code right) split).2

theorem codeOf_ones (byte : UInt8) (count : Nat) : ¬ codeOf byte <+: List.replicate count true := by
  intro initial
  have member := initial.subset (false_mem_codeOf byte)
  cases List.eq_of_mem_replicate member

theorem spells_codesOf (text : List UInt8) : Spells hpackString text (codesOf text) := by
  induction text with
  | nil => exact .nil
  | cons byte text ih =>
      rw [codesOf, List.flatMap_cons]
      exact .cons (codeOf_code byte) ih

theorem rfcString_pack (text : List UInt8) : RfcString (pack (codesOf text)) text := by
  obtain ⟨padding, split, few, ones⟩ := bitsOf_pack (codesOf text)
  exact ⟨codesOf text, padding, split, spells_codesOf text, few, ones⟩

/-- The codes are a prefix code of all bytes, none of them the start of the
EOS code, and a packed text is decoded to itself while 32 bits hold its length
in bits. -/
theorem hpackDecode_pack_iff (text : List UInt8) :
    ((∀ byte bits, Code hpackString bits byte ↔ bits = codeOf byte) ∧
      (∀ left right, codeOf left <+: codeOf right → left = right) ∧
      (∀ byte, ¬ codeOf byte <+: List.replicate 30 true) ∧
      hpackDecode (pack (codesOf text)) = .ok text) ↔
    (pack (codesOf text)).length < 2 ^ 29 := by
  constructor
  · intro ⟨_, _, _, decoded⟩
    by_contra long
    exact hpackDecode_large (Nat.le_of_not_lt long) text decoded
  · intro small
    exact ⟨code_iff, fun left right => codeOf_prefix, fun byte => codeOf_ones byte 30,
      hpackDecode_of_rfcString small (rfcString_pack text)⟩

theorem codesOf_replicate_length (count : Nat) (byte : UInt8) :
    (codesOf (List.replicate count byte)).length = count * (codeOf byte).length := by
  rw [codesOf, List.length_flatMap, List.map_replicate, List.sum_replicate_nat]

/-- Half a gigabyte of ampersands, eight bits each. -/
theorem hpackDecode_pack_ampersands :
    hpackDecode (pack (codesOf (List.replicate (2 ^ 29) (ascii '&')))) ≠
      .ok (List.replicate (2 ^ 29) (ascii '&')) := by
  apply hpackDecode_large
  have width : (codeOf (ascii '&')).length = 8 := by decide +kernel
  rw [pack_length, codesOf_replicate_length, width]
  decide

end Webtrans.Proto.Huffman
