import Mathlib.Data.Finmap

namespace Webtrans.Data

/-! Finite maps from lists of entries. -/

variable {α : Type u} {β : α → Type v}

theorem nodupKeys_of_entries {order : List (Sigma β)} {map : Finmap β}
    (entries : (order : Multiset (Sigma β)) = map.entries) : order.NodupKeys := by
  have distinct := map.nodupKeys
  rwa [← entries, Multiset.coe_nodupKeys] at distinct

/-- The entries whose key is kept. -/
def filterKeys (keep : α → Bool) (map : Finmap β) : Finmap β where
  entries := map.entries.filter fun entry => keep entry.1
  nodupKeys := Multiset.nodup_keys.mp
    (Multiset.nodup_of_le (Multiset.map_le_map (Multiset.filter_le _ _)) map.nodupKeys.nodup_keys)

theorem filterKeys_entries (keep : α → Bool) (map : Finmap β) :
    (filterKeys keep map).entries = map.entries.filter fun entry => keep entry.1 := rfl

variable [DecidableEq α]

theorem lookup_foldl_insert {entries : List (Sigma β)} (distinct : entries.NodupKeys) (map : Finmap β)
    (key : α) :
    (entries.foldl (fun map entry => map.insert entry.1 entry.2) map).lookup key =
      (entries.dlookup key).or (map.lookup key) := by
  induction entries generalizing map with
  | nil => rfl
  | cons entry entries ih =>
      obtain ⟨first, value⟩ := entry
      obtain ⟨fresh, distinct⟩ := List.nodupKeys_cons.mp distinct
      rw [List.foldl_cons, ih distinct]
      by_cases same : key = first
      · subst same
        rw [List.dlookup_eq_none.mpr fresh, Finmap.lookup_insert, List.dlookup_cons_eq]
        rfl
      · rw [Finmap.lookup_insert_of_ne _ same, List.dlookup_cons_ne _ _ same]

/-- Inserting entries of distinct keys one by one gives the map of the list. -/
theorem foldl_insert_empty {entries : List (Sigma β)} (distinct : entries.NodupKeys) :
    entries.foldl (fun map entry => map.insert entry.1 entry.2) ∅ = entries.toFinmap := by
  apply Finmap.ext_lookup
  intro key
  rw [lookup_foldl_insert distinct, Finmap.lookup_empty, Option.or_none, Finmap.dlookup_list_toFinmap]

theorem toFinmap_of_entries {order : List (Sigma β)} {map : Finmap β}
    (entries : (order : Multiset (Sigma β)) = map.entries) : order.toFinmap = map := by
  have listed : map = (⟨order, nodupKeys_of_entries entries⟩ : AList β).toFinmap :=
    Finmap.ext entries.symm
  apply Finmap.ext_lookup
  intro key
  rw [Finmap.dlookup_list_toFinmap, listed, Finmap.lookup_toFinmap]
  rfl

theorem lookup_of_entries {order : List (Sigma β)} {map : Finmap β}
    (entries : (order : Multiset (Sigma β)) = map.entries) {entry : Sigma β} (member : entry ∈ order) :
    map.lookup entry.1 = some entry.2 := by
  rw [← toFinmap_of_entries entries, Finmap.dlookup_list_toFinmap]
  exact List.mem_dlookup (nodupKeys_of_entries entries) member

theorem lookup_filterKeys (keep : α → Bool) (map : Finmap β) (key : α) :
    (filterKeys keep map).lookup key = if keep key then map.lookup key else none := by
  apply Option.ext
  intro value
  rw [Finmap.lookup_eq_some_iff, filterKeys_entries, Multiset.mem_filter, ← Finmap.lookup_eq_some_iff]
  split
  next kept => exact and_iff_left kept
  next dropped => exact iff_of_false (fun both => dropped both.2) (by simp)

theorem lookup_insert_ite {γ : Type v} (map : Finmap fun _ : α => γ) (key other : α) (value : γ) :
    (map.insert key value).lookup other = if other = key then some value else map.lookup other := by
  split
  next same => rw [same, Finmap.lookup_insert]
  next differ => rw [Finmap.lookup_insert_of_ne map differ]

theorem lookup_erase_ite {γ : Type v} (map : Finmap fun _ : α => γ) (key other : α) :
    (map.erase key).lookup other = if other = key then none else map.lookup other := by
  split
  next same => rw [same, Finmap.lookup_erase]
  next differ => rw [Finmap.lookup_erase_ne differ]

end Webtrans.Data
