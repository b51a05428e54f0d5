import Lookalike.SortedMap

/-!
# Looking up in sorted maps

What each operation does to later lookups, and that the entries of a map are the keys that are
found, each once.
-/

namespace Lookalike.SortedMap

variable {α : Type u}

@[simp]
theorem get?_empty (key : String) : (∅ : SortedMap α).get? key = none := rfl

theorem find?_put (key : String) (value : α) (entries : List (String × α)) (wanted : String) :
    (put key value entries).find? (·.1 = wanted) =
      if key = wanted then some (key, value) else entries.find? (·.1 = wanted) := by
  induction entries with
  | nil => by_cases h : key = wanted <;> simp [put, h]
  | cons first rest ih =>
    obtain ⟨k, v⟩ := first
    simp only [put]
    split
    · by_cases h : key = wanted <;> simp [h]
    · split
      next same =>
        subst same
        by_cases h : key = wanted <;> simp [h]
      next different =>
        rw [List.find?_cons, ih]
        by_cases h : key = wanted
        · subst h
          simp [Ne.symm different]
        · simp [h, List.find?_cons]

@[simp]
theorem get?_insert (m : SortedMap α) (key : String) (value : α) (wanted : String) :
    (m.insert key value).get? wanted = if key = wanted then some value else m.get? wanted := by
  simp only [get?, insert, find?_put]
  split <;> rfl

@[simp]
theorem get?_erase (m : SortedMap α) (key wanted : String) :
    (m.erase key).get? wanted = if key = wanted then none else m.get? wanted := by
  simp only [get?, erase, filter, List.find?_filter]
  by_cases h : key = wanted
  · subst h
    simp
  · simp only [h, if_false]
    congr 2
    funext e
    by_cases he : e.1 = wanted <;> simp [he, Ne.symm h]

theorem contains_eq_isSome_get? (m : SortedMap α) (key : String) :
    m.contains key = (m.get? key).isSome := by
  rw [Bool.eq_iff_iff]
  simp [contains, get?, Option.isSome_map]

theorem find?_eq_some_of_mem {entries : List (String × α)} (h : Ascending entries)
    {e : String × α} (he : e ∈ entries) : entries.find? (·.1 = e.1) = some e := by
  induction entries with
  | nil => simp at he
  | cons first rest ih =>
    have ⟨above, rest_ascending⟩ := List.pairwise_cons.mp h
    rcases List.mem_cons.mp he with rfl | he
    · simp
    · have different : first.1 ≠ e.1 := fun same => by
        have less := above e he
        rw [same] at less
        exact String.lt_irrefl _ less
      simp [different, ih rest_ascending he]

/-- The entries are the keys that are found, with what is found. -/
theorem mem_entries_iff (m : SortedMap α) (key : String) (value : α) :
    (key, value) ∈ m.entries ↔ m.get? key = some value := by
  constructor
  · intro h
    simp [get?, find?_eq_some_of_mem m.ascending h]
  · intro h
    obtain ⟨e, found, rfl⟩ := Option.map_eq_some_iff.mp h
    have same : e.1 = key := by simpa using List.find?_some found
    exact same ▸ List.mem_of_find?_eq_some found

theorem mem_keys_iff (m : SortedMap α) (key : String) : key ∈ m.keys ↔ (m.get? key).isSome := by
  simp only [keys, List.mem_map, Option.isSome_iff_exists, ← mem_entries_iff]
  constructor
  · rintro ⟨e, he, rfl⟩
    exact ⟨e.2, he⟩
  · rintro ⟨value, h⟩
    exact ⟨(key, value), h, rfl⟩

theorem nodup_keys (m : SortedMap α) : m.keys.Nodup := by
  refine List.pairwise_map.mpr (m.ascending.imp fun less same => ?_)
  rw [same] at less
  exact String.lt_irrefl _ less

end Lookalike.SortedMap
