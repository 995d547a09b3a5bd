import Mathlib.Logic.Relation
import Webtrans.Proto.Settings.Decode

namespace Webtrans.Proto

open Webtrans.Data

/-! What the SETTINGS decoder accepts. -/

namespace SettingEntry

/-- The entry of a boolean identifier with a value above 1. -/
def Offends (entry : SettingEntry) : Prop :=
  entry.1 ∈ Setting.booleans ∧ entry.2.intoInner > 1

instance (entry : SettingEntry) : Decidable (Offends entry) :=
  inferInstanceAs (Decidable (_ ∧ _))

theorem Offends.notGrease {entry : SettingEntry} (offends : Offends entry) : entry.1.isGrease = false :=
  Setting.booleans_notGrease offends.1

def retained (entries : List SettingEntry) : List SettingEntry :=
  entries.filter fun entry => !entry.1.isGrease

theorem retained_cons_grease {entry : SettingEntry} (grease : entry.1.isGrease = true)
    (entries : List SettingEntry) : retained (entry :: entries) = retained entries := by
  rw [retained, List.filter_cons, grease]
  rfl

theorem retained_cons {entry : SettingEntry} (ordinary : entry.1.isGrease = false)
    (entries : List SettingEntry) : retained (entry :: entries) = entry :: retained entries := by
  rw [retained, List.filter_cons, ordinary]
  rfl

/-- No identifier occurs twice but for GREASE, and the booleans are 0 or 1. -/
structure Legal (entries : List SettingEntry) : Prop where
  distinct : (retained entries).NodupKeys
  boolean : ∀ entry ∈ entries, ¬ Offends entry

theorem legal_nil : Legal [] where
  distinct := List.nodupKeys_nil
  boolean := List.forall_mem_nil _

theorem legal_cons_grease {entry : SettingEntry} (grease : entry.1.isGrease = true)
    {entries : List SettingEntry} : Legal (entry :: entries) ↔ Legal entries := by
  have boolean : ¬ Offends entry := by
    intro offends
    rw [offends.notGrease] at grease
    cases grease
  constructor
  · intro legal
    have distinct := legal.distinct
    rw [retained_cons_grease grease] at distinct
    exact ⟨distinct, (List.forall_mem_cons.mp legal.boolean).2⟩
  · intro legal
    refine ⟨?_, List.forall_mem_cons.mpr ⟨boolean, legal.boolean⟩⟩
    rw [retained_cons_grease grease]
    exact legal.distinct

theorem legal_cons {entry : SettingEntry} (ordinary : entry.1.isGrease = false)
    {entries : List SettingEntry} :
    Legal (entry :: entries) ↔
      ¬ Offends entry ∧ (∀ other ∈ retained entries, other.1 ≠ entry.1) ∧ Legal entries := by
  constructor
  · intro legal
    have distinct := legal.distinct
    rw [retained_cons ordinary, List.nodupKeys_cons] at distinct
    obtain ⟨boolean, later⟩ := List.forall_mem_cons.mp legal.boolean
    refine ⟨boolean, fun other member same => ?_, distinct.2, later⟩
    exact distinct.1 (same ▸ List.mem_map_of_mem member)
  · intro both
    obtain ⟨boolean, apart, legal⟩ := both
    refine ⟨?_, List.forall_mem_cons.mpr ⟨boolean, legal.boolean⟩⟩
    rw [retained_cons ordinary, List.nodupKeys_cons]
    refine ⟨fun listed => ?_, legal.distinct⟩
    obtain ⟨other, member, same⟩ := List.mem_map.mp listed
    exact apart other member same

end SettingEntry

namespace Settings

open SettingEntry

theorem accept_grease {entry : SettingEntry} (grease : entry.1.isGrease = true) (settings : Settings) :
    settings.accept entry = .ok settings := by
  rw [accept, if_pos grease]

theorem accept_duplicate {entry : SettingEntry} {settings : Settings} (ordinary : entry.1.isGrease = false)
    (present : entry.1 ∈ settings) : settings.accept entry = .error (.duplicateSetting entry.1) := by
  rw [accept, if_neg (by rw [ordinary]; exact Bool.false_ne_true), if_pos present]

theorem accept_offends {entry : SettingEntry} {settings : Settings} (fresh : entry.1 ∉ settings)
    (offends : Offends entry) : settings.accept entry = .error (.invalidValue entry.1 entry.2) := by
  rw [accept, if_neg (by rw [offends.notGrease]; exact Bool.false_ne_true), if_neg fresh]
  exact if_pos offends

theorem accept_insert {entry : SettingEntry} {settings : Settings} (ordinary : entry.1.isGrease = false)
    (fresh : entry.1 ∉ settings) (boolean : ¬ Offends entry) :
    settings.accept entry = .ok (settings.insert entry.1 entry.2) := by
  rw [accept, if_neg (by rw [ordinary]; exact Bool.false_ne_true), if_neg fresh]
  exact if_neg boolean

/-- The decoder's loop adds the retained entries to the map. -/
theorem foldlM_accept (settings after : Settings) (entries : List SettingEntry) :
    entries.foldlM accept settings = .ok after ↔
      Legal entries ∧ (∀ entry ∈ retained entries, entry.1 ∉ settings) ∧
        after.entries = (retained entries : Multiset SettingEntry) + settings.entries := by
  induction entries generalizing settings with
  | nil =>
      rw [List.foldlM_nil]
      constructor
      · intro finished
        cases finished
        exact ⟨legal_nil, by simp [retained], by simp [retained]⟩
      · intro ⟨_, _, same⟩
        rw [show after = settings from Finmap.ext (by simpa [retained] using same)]
        rfl
  | cons entry entries ih =>
      rw [List.foldlM_cons]
      by_cases grease : entry.1.isGrease = true
      · rw [accept_grease grease, legal_cons_grease grease, retained_cons_grease grease]
        exact ih settings
      · have ordinary : entry.1.isGrease = false := Bool.eq_false_iff.mpr grease
        rw [legal_cons ordinary, retained_cons ordinary]
        by_cases present : entry.1 ∈ settings
        · rw [accept_duplicate ordinary present]
          refine iff_of_false (by intro failed; cases failed) ?_
          intro ⟨_, fresh, _⟩
          exact fresh entry List.mem_cons_self present
        by_cases offends : Offends entry
        · rw [accept_offends present offends]
          refine iff_of_false (by intro failed; cases failed) ?_
          intro ⟨legal, _⟩
          exact legal.1 offends
        rw [accept_insert ordinary present offends]
        refine (ih (settings.insert entry.1 entry.2)).trans ?_
        rw [Finmap.entries_insert_of_notMem present, Multiset.add_cons, ← Multiset.cons_coe, Multiset.cons_add]
        rw [← and_assoc, ← and_assoc]
        refine and_congr_left fun _ => ⟨?_, ?_⟩
        · intro ⟨legal, fresh⟩
          have apart : ∀ other ∈ retained entries, other.1 ≠ entry.1 ∧ other.1 ∉ settings := by
            intro other member
            have absent := fresh other member
            rwa [Finmap.mem_insert, not_or] at absent
          exact ⟨⟨offends, fun other member => (apart other member).1, legal⟩,
            List.forall_mem_cons.mpr ⟨present, fun other member => (apart other member).2⟩⟩
        · intro both
          obtain ⟨⟨_, apart, legal⟩, fresh⟩ := both
          refine ⟨legal, fun other member => ?_⟩
          rw [Finmap.mem_insert, not_or]
          exact ⟨apart other member, (List.forall_mem_cons.mp fresh).2 other member⟩

end Settings

/-- The control stream type, complete GREASE frames and a complete SETTINGS
frame. -/
structure ControlStream where
  typBytes : List UInt8
  typ_reads : VarInt.decode.Reads typBytes UniStream.control.typ
  grease : List Tlv
  reserved : ∀ tlv ∈ grease, isGreaseValue tlv.typ.intoInner = true
  frame : Tlv
  frame_typ : frame.typ = Frame.settings.typ

namespace ControlStream

def bytes (stream : ControlStream) : List UInt8 :=
  stream.typBytes ++ (stream.grease.flatMap Tlv.bytes ++ stream.frame.bytes)

theorem frame_ordinary (stream : ControlStream) : isGreaseValue stream.frame.typ.intoInner = false := by
  rw [stream.frame_typ]
  decide

/-- The payload of the SETTINGS frame is the pairs one after another. -/
def Spells (stream : ControlStream) (pairs : List SettingPair) : Prop :=
  stream.frame.payload = pairs.flatMap SettingPair.bytes

end ControlStream

namespace Settings

open SettingEntry

theorem decode_controlStream (stream : ControlStream) (rest : List UInt8) :
    decode (stream.bytes ++ rest) =
      (decodePair.foldItems decodePair_shrinks accept ∅ stream.frame.payload).map fun settings =>
        (settings, rest) := by
  have typ : UniStream.decode (stream.bytes ++ rest) =
      .ok (UniStream.control, stream.grease.flatMap Tlv.bytes ++ (stream.frame.bytes ++ rest)) := by
    rw [ControlStream.bytes, List.append_assoc, List.append_assoc]
    exact UniStream.decode_reads stream.typ_reads _
  rw [decode, typ]
  dsimp only
  rw [if_neg (by simp), Frame.read_grease stream.reserved, Frame.read_bytes, stream.frame_ordinary,
    stream.frame_typ]
  simp only [Bool.false_eq_true, if_false]
  rw [if_neg (by simp)]
  cases decodePair.foldItems decodePair_shrinks accept ∅ stream.frame.payload <;> rfl

theorem decode_spelled {stream : ControlStream} {pairs : List SettingPair} (spells : stream.Spells pairs)
    (rest : List UInt8) :
    decode (stream.bytes ++ rest) =
      ((pairs.map SettingPair.entry).foldlM accept ∅).map fun settings => (settings, rest) := by
  rw [decode_controlStream, spells, Parser.foldItems_flatMap SettingPair.reads]

theorem foldlM_accept_empty (settings : Settings) (entries : List SettingEntry) :
    entries.foldlM accept ∅ = .ok settings ↔
      Legal entries ∧ settings.entries = (retained entries : Multiset SettingEntry) := by
  have empty : (∅ : Settings).entries = 0 := rfl
  rw [foldlM_accept, empty, add_zero]
  exact and_congr_right fun _ => and_iff_right fun _ _ => Finmap.notMem_empty

theorem decode_iff (stream : ControlStream) (rest : List UInt8) (settings : Settings) (after : List UInt8) :
    decode (stream.bytes ++ rest) = .ok (settings, after) ↔
      after = rest ∧ ∃ pairs, stream.Spells pairs ∧ Legal (pairs.map SettingPair.entry) ∧
        settings.entries = (retained (pairs.map SettingPair.entry) : Multiset SettingEntry) := by
  have accepted : decodePair.foldItems decodePair_shrinks accept ∅ stream.frame.payload = .ok settings ↔
      ∃ pairs, stream.Spells pairs ∧ Legal (pairs.map SettingPair.entry) ∧
        settings.entries = (retained (pairs.map SettingPair.entry) : Multiset SettingEntry) := by
    simp only [← foldlM_accept_empty]
    exact Parser.foldItems_ok_iff SettingPair.reads SettingPair.spelled ∅ settings stream.frame.payload
  rw [decode_controlStream]
  constructor
  · intro decoded
    cases folded : decodePair.foldItems decodePair_shrinks accept ∅ stream.frame.payload with
    | error error =>
        rw [folded] at decoded
        cases decoded
    | ok found =>
        rw [folded] at decoded
        cases decoded
        exact ⟨rfl, accepted.mp folded⟩
  · intro legal
    rw [accepted.mpr legal.2, legal.1]
    rfl

/-- The same pairs in another order, with a GREASE pair more, or with other
varint lengths. -/
inductive Rearranged : List SettingPair → List SettingPair → Prop where
  | permuted {left right : List SettingPair} (perm : left.Perm right) : Rearranged left right
  | inserted (front back : List SettingPair) (pair : SettingPair) (grease : pair.setting.isGrease = true) :
      Rearranged (front ++ back) (front ++ pair :: back)
  | respelled {left right : List SettingPair}
      (same : left.map SettingPair.entry = right.map SettingPair.entry) : Rearranged left right

theorem Rearranged.retained {left right : List SettingPair} (step : Rearranged left right) :
    (retained (left.map SettingPair.entry)).Perm (retained (right.map SettingPair.entry)) := by
  cases step with
  | permuted perm => exact (perm.map _).filter _
  | inserted front back pair grease =>
      have skipped : SettingEntry.retained (pair.entry :: back.map SettingPair.entry) =
          SettingEntry.retained (back.map SettingPair.entry) := retained_cons_grease grease _
      simp only [SettingEntry.retained] at skipped ⊢
      rw [List.map_append, List.map_append, List.map_cons, List.filter_append, List.filter_append, skipped]
  | respelled same => rw [same]

theorem rearranged_retained {left right : List SettingPair} (steps : Relation.EqvGen Rearranged left right) :
    (retained (left.map SettingPair.entry)).Perm (retained (right.map SettingPair.entry)) := by
  induction steps with
  | rel left right step => exact step.retained
  | refl pairs => exact .refl _
  | symm left right _ ih => exact ih.symm
  | trans left middle right _ _ first second => exact first.trans second

/-- Whether the entries are accepted, and to which map, depends on the
multiset of those retained. -/
theorem foldlM_accept_congr {left right : List SettingEntry} (same : (retained left).Perm (retained right))
    (settings : Settings) :
    left.foldlM accept ∅ = .ok settings ↔ right.foldlM accept ∅ = .ok settings := by
  have transfer : ∀ {left right : List SettingEntry}, (retained left).Perm (retained right) →
      left.foldlM accept ∅ = .ok settings → right.foldlM accept ∅ = .ok settings := by
    intro left right same accepted
    rw [foldlM_accept_empty] at accepted ⊢
    obtain ⟨legal, entries⟩ := accepted
    refine ⟨⟨(List.perm_nodupKeys same).mp legal.distinct, ?_⟩, entries.trans (Multiset.coe_eq_coe.mpr same)⟩
    intro entry member offends
    have kept : entry ∈ retained right :=
      List.mem_filter.mpr ⟨member, by rw [offends.notGrease]; rfl⟩
    exact legal.boolean entry (List.mem_filter.mp (same.mem_iff.mpr kept)).1 offends
  exact ⟨transfer same, transfer same.symm⟩

/-- The decoder accepts a control stream exactly when the payload of its
SETTINGS frame is legal pairs one after another.  The map holds the retained
ones, however they are arranged. -/
theorem decode_grammar (stream : ControlStream) (rest : List UInt8) :
    (∀ settings after, decode (stream.bytes ++ rest) = .ok (settings, after) ↔
      after = rest ∧ ∃ pairs, stream.Spells pairs ∧ Legal (pairs.map SettingPair.entry) ∧
        settings.entries = (retained (pairs.map SettingPair.entry) : Multiset SettingEntry)) ∧
    ∀ (other : ControlStream) (pairs otherPairs : List SettingPair), stream.Spells pairs →
      other.Spells otherPairs → Relation.EqvGen Rearranged pairs otherPairs →
      ∀ settings, decode (stream.bytes ++ rest) = .ok (settings, rest) ↔
        decode (other.bytes ++ rest) = .ok (settings, rest) := by
  refine ⟨decode_iff stream rest, ?_⟩
  intro other pairs otherPairs spells otherSpells arranged settings
  have same := foldlM_accept_congr (rearranged_retained arranged) settings
  have whole : ∀ folded : Except SettingsError Settings,
      (folded.map fun settings => (settings, rest)) = .ok (settings, rest) ↔ folded = .ok settings := by
    intro folded
    cases folded <;> simp [Except.map]
  rw [decode_spelled spells, decode_spelled otherSpells, whole, whole, same]

end Settings

end Webtrans.Proto
