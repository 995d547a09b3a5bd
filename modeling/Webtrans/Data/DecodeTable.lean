import Webtrans.Data.Bits

namespace Webtrans.Data

/-! Prefix codes given by decoding tables.

A table reads a fixed number of bits and looks up a symbol or a further table.
The code of a symbol is the bit path to it. -/

mutual

inductive TableEntry (α : Type u) where
  | sym (value : α)
  | subtable (decoder : TableDecoder α)

inductive TableDecoder (α : Type u) where
  | mk (lookup : Nat) (table : List (TableEntry α))

end

variable {α : Type u}

namespace TableDecoder

def lookup : TableDecoder α → Nat
  | mk lookup _ => lookup

def table : TableDecoder α → List (TableEntry α)
  | mk _ table => table

theorem sizeOf_subtable_lt [SizeOf α] {decoder inner : TableDecoder α} {index : Nat}
    (found : decoder.table[index]? = some (.subtable inner)) : sizeOf inner < sizeOf decoder := by
  cases decoder with
  | mk lookup table =>
      have member : TableEntry.subtable inner ∈ table := List.mem_of_getElem? found
      have smaller := List.sizeOf_lt_of_mem member
      simp only [TableEntry.subtable.sizeOf_spec] at smaller
      simp only [mk.sizeOf_spec]
      omega

/-- The bits lead from the table to the symbol. -/
inductive Code : TableDecoder α → List Bool → α → Prop where
  | sym {decoder : TableDecoder α} {index : List Bool} {value : α} (width : index.length = decoder.lookup)
      (found : decoder.table[natOfBits index]? = some (.sym value)) : Code decoder index value
  | subtable {decoder inner : TableDecoder α} {index bits : List Bool} {value : α}
      (width : index.length = decoder.lookup)
      (found : decoder.table[natOfBits index]? = some (.subtable inner)) (code : Code inner bits value) :
      Code decoder (index ++ bits) value

/-- The bits lead from the table to a further table. -/
inductive Reaches : TableDecoder α → List Bool → TableDecoder α → Prop where
  | here {decoder : TableDecoder α} : Reaches decoder [] decoder
  | subtable {decoder inner last : TableDecoder α} {index bits : List Bool}
      (width : index.length = decoder.lookup)
      (found : decoder.table[natOfBits index]? = some (.subtable inner)) (reaches : Reaches inner bits last) :
      Reaches decoder (index ++ bits) last

inductive Spells (decoder : TableDecoder α) : List α → List Bool → Prop where
  | nil : Spells decoder [] []
  | cons {value : α} {text : List α} {code bits : List Bool} (first : Code decoder code value)
      (rest : Spells decoder text bits) : Spells decoder (value :: text) (code ++ bits)

/-- Two codes at the front of the same bits are the same. -/
theorem Code.unique {decoder : TableDecoder α} {left right leftRest rightRest : List Bool} {x y : α}
    (leftCode : Code decoder left x) (rightCode : Code decoder right y)
    (same : left ++ leftRest = right ++ rightRest) : left = right ∧ x = y := by
  induction leftCode generalizing right with
  | sym width found =>
      cases rightCode with
      | sym rightWidth rightFound =>
          obtain ⟨index, _⟩ := List.append_inj same (width.trans rightWidth.symm)
          subst index
          rw [found] at rightFound
          cases rightFound
          exact ⟨rfl, rfl⟩
      | subtable rightWidth rightFound _ =>
          rw [List.append_assoc] at same
          obtain ⟨index, _⟩ := List.append_inj same (width.trans rightWidth.symm)
          subst index
          rw [found] at rightFound
          cases rightFound
  | subtable width found _ ih =>
      rw [List.append_assoc] at same
      cases rightCode with
      | sym rightWidth rightFound =>
          obtain ⟨index, _⟩ := List.append_inj same (width.trans rightWidth.symm)
          subst index
          rw [found] at rightFound
          cases rightFound
      | subtable rightWidth rightFound rightInner =>
          rw [List.append_assoc] at same
          obtain ⟨index, later⟩ := List.append_inj same (width.trans rightWidth.symm)
          subst index
          rw [found] at rightFound
          cases rightFound
          obtain ⟨bits, value⟩ := ih rightInner later
          exact ⟨congrArg _ bits, value⟩

theorem Spells.unique {decoder : TableDecoder α} {text : List α} {left right leftRest rightRest : List Bool}
    (leftSpells : Spells decoder text left) (rightSpells : Spells decoder text right)
    (same : left ++ leftRest = right ++ rightRest) : left = right := by
  induction leftSpells generalizing right with
  | nil =>
      cases rightSpells
      rfl
  | cons first _ ih =>
      cases rightSpells with
      | cons rightFirst rightLater =>
          rw [List.append_assoc, List.append_assoc] at same
          obtain ⟨code, _⟩ := first.unique rightFirst same
          subst code
          exact congrArg _ (ih rightLater (List.append_cancel_left same))

/-- Every bit string starts with a code, ends inside one, or leads to an index
that its table does not hold. -/
theorem progress [SizeOf α] (decoder : TableDecoder α) (bits : List Bool) :
    (∃ code rest value, bits = code ++ rest ∧ Code decoder code value) ∨
    ∃ walked unread inner, bits = walked ++ unread ∧ Reaches decoder walked inner ∧
      (unread.length < inner.lookup ∨
        inner.lookup ≤ unread.length ∧ inner.table[natOfBits (unread.take inner.lookup)]? = none) := by
  induction size : sizeOf decoder using Nat.strong_induction_on generalizing decoder bits with
  | h size ih =>
      subst size
      by_cases short : bits.length < decoder.lookup
      · exact .inr ⟨[], bits, decoder, rfl, .here, .inl short⟩
      · have width : (bits.take decoder.lookup).length = decoder.lookup := by
          rw [List.length_take]
          omega
        cases found : decoder.table[natOfBits (bits.take decoder.lookup)]? with
        | none => exact .inr ⟨[], bits, decoder, rfl, .here, .inr ⟨by omega, found⟩⟩
        | some entry =>
            cases entry with
            | sym value =>
                exact .inl ⟨_, bits.drop decoder.lookup, value, (List.take_append_drop _ bits).symm,
                  .sym width found⟩
            | subtable inner =>
                rcases ih _ (sizeOf_subtable_lt found) inner (bits.drop decoder.lookup) rfl with
                  ⟨code, rest, value, split, path⟩ | ⟨walked, unread, last, split, path, stops⟩
                · refine .inl ⟨_, rest, value, ?_, .subtable width found path⟩
                  rw [List.append_assoc, ← split, List.take_append_drop]
                · refine .inr ⟨_, unread, last, ?_, .subtable width found path, stops⟩
                  rw [List.append_assoc, ← split, List.take_append_drop]

end TableDecoder

mutual

def TableDecoder.codes : TableDecoder α → List (List Bool × α)
  | .mk lookup table => TableEntry.codesFrom lookup 0 table

/-- An entry behind those that `lookup` bits can index has no code. -/
def TableEntry.codesFrom (lookup : Nat) : Nat → List (TableEntry α) → List (List Bool × α)
  | _, [] => []
  | index, entry :: entries =>
      (if index < 2 ^ lookup then entry.codes.map fun code => (bitsOfNat lookup index ++ code.1, code.2)
        else []) ++ TableEntry.codesFrom lookup (index + 1) entries

def TableEntry.codes : TableEntry α → List (List Bool × α)
  | .sym value => [([], value)]
  | .subtable decoder => decoder.codes

end

namespace TableDecoder

theorem mem_codesFrom {lookup index : Nat} {entries : List (TableEntry α)} {bits : List Bool} {value : α} :
    (bits, value) ∈ TableEntry.codesFrom lookup index entries ↔
      ∃ offset entry inner, entries[offset]? = some entry ∧ index + offset < 2 ^ lookup ∧
        (inner, value) ∈ entry.codes ∧ bits = bitsOfNat lookup (index + offset) ++ inner := by
  induction entries generalizing index with
  | nil => simp [TableEntry.codesFrom]
  | cons first entries ih =>
      rw [TableEntry.codesFrom, List.mem_append, ih]
      constructor
      · intro member
        obtain here | ⟨offset, entry, inner, found, small, code, rfl⟩ := member
        · split at here
          next small =>
            obtain ⟨⟨inner, _⟩, code, same⟩ := List.mem_map.mp here
            cases same
            exact ⟨0, first, inner, rfl, small, code, rfl⟩
          next => cases here
        · exact ⟨offset + 1, entry, inner, found, by omega, code, by rw [Nat.add_assoc, Nat.add_comm 1]⟩
      · intro member
        obtain ⟨offset, entry, inner, found, small, code, rfl⟩ := member
        cases offset with
        | zero =>
            cases found
            rw [if_pos (by omega)]
            exact .inl (List.mem_map.mpr ⟨_, code, rfl⟩)
        | succ offset =>
            exact .inr ⟨offset, entry, inner, found, by omega, code,
              by rw [Nat.add_assoc, Nat.add_comm 1]⟩

theorem mem_codes {decoder : TableDecoder α} {bits : List Bool} {value : α} :
    (bits, value) ∈ decoder.codes ↔
      ∃ index entry inner, decoder.table[index]? = some entry ∧ index < 2 ^ decoder.lookup ∧
        (inner, value) ∈ entry.codes ∧ bits = bitsOfNat decoder.lookup index ++ inner := by
  cases decoder with
  | mk lookup table =>
      rw [codes, mem_codesFrom]
      simp only [Nat.zero_add, TableDecoder.table, TableDecoder.lookup]

theorem Code.mem_codes {decoder : TableDecoder α} {bits : List Bool} {value : α}
    (code : Code decoder bits value) : (bits, value) ∈ decoder.codes := by
  induction code with
  | @sym decoder index value width found =>
      have small := natOfBits_lt index
      have kept := bitsOfNat_natOfBits index
      rw [width] at small kept
      refine TableDecoder.mem_codes.mpr ⟨_, _, [], found, small, ?_, ?_⟩
      · rw [TableEntry.codes]
        exact List.mem_singleton_self _
      · rw [kept, List.append_nil]
  | @subtable decoder inner index bits value width found _ ih =>
      have small := natOfBits_lt index
      have kept := bitsOfNat_natOfBits index
      rw [width] at small kept
      refine TableDecoder.mem_codes.mpr ⟨_, _, bits, found, small, ?_, by rw [kept]⟩
      rw [TableEntry.codes]
      exact ih

theorem code_of_mem_codes [SizeOf α] {decoder : TableDecoder α} {bits : List Bool} {value : α}
    (member : (bits, value) ∈ decoder.codes) : Code decoder bits value := by
  induction size : sizeOf decoder using Nat.strong_induction_on generalizing decoder bits with
  | h size ih =>
      subst size
      obtain ⟨index, entry, inner, found, small, code, rfl⟩ := TableDecoder.mem_codes.mp member
      have width := bitsOfNat_length decoder.lookup index
      have value_ : natOfBits (bitsOfNat decoder.lookup index) = index := by
        rw [natOfBits_bitsOfNat, Nat.mod_eq_of_lt small]
      cases entry with
      | sym symbol =>
          rw [TableEntry.codes, List.mem_singleton] at code
          cases code
          rw [List.append_nil]
          exact .sym width (by rw [value_]; exact found)
      | subtable next =>
          rw [TableEntry.codes] at code
          have path := ih _ (sizeOf_subtable_lt found) code rfl
          exact .subtable width (by rw [value_]; exact found) path

end TableDecoder

mutual

/-- Every table below and including this one passes the check. -/
def TableDecoder.all (check : Nat → Bool → Bool) : TableDecoder α → Bool
  | .mk lookup table => check lookup table.isEmpty && TableEntry.allIn check table

def TableEntry.allIn (check : Nat → Bool → Bool) : List (TableEntry α) → Bool
  | [] => true
  | entry :: entries => entry.all check && TableEntry.allIn check entries

def TableEntry.all (check : Nat → Bool → Bool) : TableEntry α → Bool
  | .sym _ => true
  | .subtable decoder => decoder.all check

end

namespace TableDecoder

variable {check : Nat → Bool → Bool}

theorem check_of_all {decoder : TableDecoder α} (checked : decoder.all check = true) :
    check decoder.lookup decoder.table.isEmpty = true := by
  cases decoder with
  | mk lookup table =>
      rw [all, Bool.and_eq_true] at checked
      exact checked.1

theorem all_of_mem {entries : List (TableEntry α)} {entry : TableEntry α}
    (checked : TableEntry.allIn check entries = true) (member : entry ∈ entries) :
    entry.all check = true := by
  induction entries with
  | nil => cases member
  | cons first entries ih =>
      rw [TableEntry.allIn, Bool.and_eq_true] at checked
      cases member with
      | head => exact checked.1
      | tail _ member => exact ih checked.2 member

theorem all_subtable {decoder inner : TableDecoder α} {index : Nat} (checked : decoder.all check = true)
    (found : decoder.table[index]? = some (.subtable inner)) : inner.all check = true := by
  cases decoder with
  | mk lookup table =>
      rw [all, Bool.and_eq_true] at checked
      have entry := all_of_mem checked.2 (List.mem_of_getElem? found)
      rwa [TableEntry.all] at entry

theorem Reaches.all {decoder inner : TableDecoder α} {bits : List Bool} (reaches : Reaches decoder bits inner)
    (checked : decoder.all check = true) : inner.all check = true := by
  induction reaches with
  | here => exact checked
  | subtable _ found _ ih => exact ih (all_subtable checked found)

end TableDecoder

end Webtrans.Data
