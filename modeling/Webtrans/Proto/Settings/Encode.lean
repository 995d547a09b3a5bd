import Mathlib.Algebra.Order.BigOperators.Group.List
import Webtrans.Proto.Settings.Grammar

namespace Webtrans.Proto.Settings

open Webtrans.Data SettingEntry

/-! The SETTINGS encoder, and what the decoder makes of its bytes. -/

/-- An order in which the hash map yields its entries.  A slot of the table
takes 16 bytes and a control byte, their number is a power of two and an eighth
of them stays free, so an allocation of less than 2^63 bytes holds fewer than
2^58 entries. -/
structure Iteration (settings : Settings) where
  order : List SettingEntry
  entries : (order : Multiset SettingEntry) = settings.entries
  allocated : order.length < 2 ^ 58

variable {settings : Settings}

def payloadLen (iteration : settings.Iteration) : Nat :=
  (iteration.order.map fun entry => entry.1.size + entry.2.size).sum

/-- Encode this settings map as a control stream prefix followed by a SETTINGS
frame.  `none` is the panic of the `expect` on the length. -/
def encode (iteration : settings.Iteration) : Option (List UInt8) :=
  match VarInt.fromU64 (payloadLen iteration) with
  | none => none
  | some length =>
      some (UniStream.control.encode ++ Frame.settings.encode ++ length.encode ++
        iteration.order.flatMap fun entry => entry.1.encode ++ entry.2.encode)

def payload (iteration : settings.Iteration) : List UInt8 :=
  (iteration.order.map SettingPair.shortest).flatMap SettingPair.bytes

theorem payload_length (iteration : settings.Iteration) :
    (payload iteration).length = payloadLen iteration := by
  rw [payload, payloadLen, List.length_flatMap, List.map_map]
  congr 1
  apply List.map_congr_left
  intro entry _
  simp only [Function.comp_apply, SettingPair.shortest, SettingPair.bytes, List.length_append,
    Setting.encode, Setting.size, VarInt.encode_length]

theorem payloadLen_lt (iteration : settings.Iteration) : payloadLen iteration < 2 ^ 62 := by
  have each : ∀ size ∈ iteration.order.map fun entry => entry.1.size + entry.2.size, size ≤ 16 := by
    intro size member
    obtain ⟨entry, _, rfl⟩ := List.mem_map.mp member
    have id := VarInt.size_le entry.1.id
    have value := VarInt.size_le entry.2
    rw [Setting.size]
    omega
  have total := List.sum_le_card_nsmul _ 16 each
  have allocated := iteration.allocated
  rw [List.length_map] at total
  change payloadLen iteration ≤ iteration.order.length * 16 at total
  omega

theorem payload_lt (iteration : settings.Iteration) : (payload iteration).length < 2 ^ 62 := by
  rw [payload_length]
  exact payloadLen_lt iteration

def controlStream (iteration : settings.Iteration) : ControlStream where
  typBytes := UniStream.control.encode
  typ_reads := VarInt.decode_reads_encode _
  grease := []
  reserved := Frame.reserved_nil
  frame := Tlv.shortest Frame.settings.typ (payload iteration) (payload_lt iteration)
  frame_typ := rfl

theorem controlStream_spells (iteration : settings.Iteration) :
    (controlStream iteration).Spells (iteration.order.map SettingPair.shortest) := rfl

theorem encode_eq (iteration : settings.Iteration) :
    encode iteration = some (controlStream iteration).bytes := by
  have length : VarInt.fromU64 (payloadLen iteration) = some (controlStream iteration).frame.length := by
    rw [VarInt.fromU64, dif_pos (payloadLen_lt iteration)]
    exact congrArg some (VarInt.ext (payload_length iteration).symm)
  have pairs : (iteration.order.flatMap fun entry => entry.1.encode ++ entry.2.encode) =
      payload iteration := by
    rw [payload, List.flatMap_map]
    rfl
  rw [encode, length, pairs]
  simp only [controlStream, ControlStream.bytes, Tlv.shortest, Tlv.bytes, Tlv.header,
    List.flatMap_nil, List.nil_append, List.append_assoc]
  rfl

/-- Where an entry is illegal the loop stops at the first one. -/
theorem foldlM_accept_invalid {entries : List SettingEntry} (distinct : entries.NodupKeys)
    (fresh : ∀ entry ∈ entries, entry.1 ∉ settings) (illegal : ∃ entry ∈ entries, Offends entry) :
    ∃ entry ∈ entries, Offends entry ∧
      entries.foldlM accept settings = .error (.invalidValue entry.1 entry.2) := by
  induction entries generalizing settings with
  | nil =>
      obtain ⟨_, member, _⟩ := illegal
      cases member
  | cons entry entries ih =>
      obtain ⟨apart, distinct⟩ := List.nodupKeys_cons.mp distinct
      have absent := fresh entry List.mem_cons_self
      by_cases offends : Offends entry
      · refine ⟨entry, List.mem_cons_self, offends, ?_⟩
        rw [List.foldlM_cons, accept_offends absent offends]
        rfl
      have later : ∃ entry ∈ entries, Offends entry := by
        obtain ⟨other, member, illegal⟩ := illegal
        obtain rfl | member := List.mem_cons.mp member
        · exact absurd illegal offends
        · exact ⟨other, member, illegal⟩
      have behind : ∀ other ∈ entries, other.1 ∉ settings :=
        fun other member => fresh other (List.mem_cons_of_mem _ member)
      cases grease : entry.1.isGrease with
      | true =>
          obtain ⟨other, member, illegal, failed⟩ := ih distinct behind later
          refine ⟨other, List.mem_cons_of_mem _ member, illegal, ?_⟩
          rw [List.foldlM_cons, accept_grease grease]
          exact failed
      | false =>
          have inserted : ∀ other ∈ entries, other.1 ∉ settings.insert entry.1 entry.2 := by
            intro other member
            rw [Finmap.mem_insert, not_or]
            refine ⟨?_, behind other member⟩
            intro same
            exact apart (same ▸ List.mem_map_of_mem member)
          obtain ⟨other, member, illegal, failed⟩ := ih distinct inserted later
          refine ⟨other, List.mem_cons_of_mem _ member, illegal, ?_⟩
          rw [List.foldlM_cons, accept_insert grease absent offends]
          exact failed

def withoutGrease (settings : Settings) : Settings :=
  filterKeys (fun id => !id.isGrease) settings

/-- The boolean identifiers that are present are 0 or 1. -/
def Boolean (settings : Settings) : Prop :=
  ∀ id value, settings.lookup id = some value → ¬ Offends ⟨id, value⟩

theorem decode_controlStream_encode (iteration : settings.Iteration) (rest : List UInt8) :
    decode ((controlStream iteration).bytes ++ rest) =
      (iteration.order.foldlM accept ∅).map fun settings => (settings, rest) := by
  have entries : (iteration.order.map SettingPair.shortest).map SettingPair.entry = iteration.order := by
    rw [List.map_map]
    exact List.map_id _
  rw [decode_spelled (controlStream_spells iteration), entries]

theorem boolean_order (iteration : settings.Iteration) :
    settings.Boolean ↔ ∀ entry ∈ iteration.order, ¬ Offends entry := by
  have listed : ∀ entry, entry ∈ iteration.order ↔ settings.lookup entry.1 = some entry.2 := by
    intro entry
    rw [Finmap.lookup_eq_some_iff, ← iteration.entries]
    exact Multiset.mem_coe.symm
  constructor
  · intro boolean entry member
    exact boolean entry.1 entry.2 ((listed entry).mp member)
  · intro boolean id value found
    exact boolean ⟨id, value⟩ ((listed ⟨id, value⟩).mpr found)

theorem foldlM_accept_order {iteration : settings.Iteration} (boolean : settings.Boolean) :
    iteration.order.foldlM accept ∅ = .ok settings.withoutGrease := by
  rw [foldlM_accept_empty]
  refine ⟨⟨?_, (boolean_order iteration).mp boolean⟩, ?_⟩
  · exact (nodupKeys_of_entries iteration.entries).sublist List.filter_sublist
  · rw [withoutGrease, filterKeys_entries, ← iteration.entries, Multiset.filter_coe]
    simp only [retained, Bool.decide_eq_true]

/-- What is encoded is decoded to itself without its GREASE entries, whatever
the order of the hash map, unless a boolean identifier is above 1. -/
theorem decode_of_encode (settings : Settings) (iteration : settings.Iteration) :
    ∃ bytes, encode iteration = some bytes ∧
      (settings.Boolean → decode bytes = .ok (settings.withoutGrease, [])) ∧
      (¬ settings.Boolean → ∃ id value, settings.lookup id = some value ∧ Offends ⟨id, value⟩ ∧
        decode bytes = .error (.invalidValue id value)) := by
  have decoded := decode_controlStream_encode iteration []
  rw [List.append_nil] at decoded
  refine ⟨_, encode_eq iteration, ?_, ?_⟩
  · intro boolean
    rw [decoded, foldlM_accept_order boolean]
    rfl
  · intro illegal
    rw [boolean_order iteration] at illegal
    push Not at illegal
    obtain ⟨entry, member, offends, failed⟩ := foldlM_accept_invalid
      (nodupKeys_of_entries iteration.entries) (fun _ _ => Finmap.notMem_empty) illegal
    refine ⟨entry.1, entry.2, lookup_of_entries iteration.entries member, offends, ?_⟩
    rw [decoded, failed]
    rfl

end Webtrans.Proto.Settings
