import Lookalike.SortedMap.Lemmas

/-!
# Sorted maps as their entries

A sorted map is its list of entries: taking in an ascending list of entries gives it back, and a map
with the same entries is the same map. Sizes and keys are read off the entries. What is found in a
store after a list was worked off is said once, for every kind of store.
-/

namespace Lookalike

section Look

variable {σ : Type u} {κ : Type v} {ι : Type w} {β : Type x}

/-- What no step changes no run changes. -/
theorem read_foldl (read : σ → β) (step : σ → κ → σ) (each : ∀ s item, read (step s item) = read s)
    (items : List κ) (s : σ) : read (items.foldl step s) = read s := by
  induction items generalizing s with
  | nil => rfl
  | cons first items ih => exact (ih (step s first)).trans (each s first)

/-- A list worked off step by step: where a step changes only what its item hits, and a change made
again changes nothing more, the whole run changes what some item hits. -/
theorem look_foldl (look : σ → ι → β) {step : σ → κ → σ} {hits : κ → ι → Prop}
    [∀ item wanted, Decidable (hits item wanted)] (change : ι → β → β)
    (again : ∀ wanted found, change wanted (change wanted found) = change wanted found)
    (one : ∀ s item wanted, look (step s item) wanted =
      if hits item wanted then change wanted (look s wanted) else look s wanted)
    (items : List κ) (s : σ) (wanted : ι) :
    look (items.foldl step s) wanted =
      if ∃ item ∈ items, hits item wanted then change wanted (look s wanted)
      else look s wanted := by
  induction items generalizing s with
  | nil => simp
  | cons first items ih =>
    rw [List.foldl_cons, ih, one]
    by_cases hit : hits first wanted
    · simp [hit, again]
    · simp [hit]

/-- Keys taken away one after another are the ones that are no longer found. -/
theorem look_foldl_removal {α : Type v} (look : σ → String → Option α) {step : σ → String → σ}
    (one : ∀ s gone wanted, look (step s gone) wanted =
      if gone = wanted then none else look s wanted)
    (gone : List String) (s : σ) (wanted : String) :
    look (gone.foldl step s) wanted = if wanted ∈ gone then none else look s wanted := by
  simpa using look_foldl look (fun _ _ => none) (fun _ _ => rfl) one gone s wanted

end Look

namespace SortedMap

variable {α : Type u}

theorem put_last {key : String} {value : α} {entries : List (String × α)}
    (last : ∀ e ∈ entries, e.1 < key) : put key value entries = entries ++ [(key, value)] := by
  induction entries with
  | nil => rfl
  | cons first rest ih =>
    obtain ⟨k, v⟩ := first
    have less : k < key := last (k, v) List.mem_cons_self
    have not_less : ¬key < k := fun h => String.lt_irrefl _ (String.lt_trans less h)
    have different : key ≠ k := fun h => String.lt_irrefl _ (h ▸ less)
    have others := ih fun e he => last e (List.mem_cons_of_mem _ he)
    simp only [put, not_less, different, if_false, others, List.cons_append]

/-- Entries that ascend are put behind each other. -/
theorem entries_foldl_insert {entries : List (String × α)} {m : SortedMap α}
    (ascending : Ascending (m.entries ++ entries)) :
    (entries.foldl (fun m e => m.insert e.1 e.2) m).entries = m.entries ++ entries := by
  induction entries generalizing m with
  | nil => simp
  | cons e entries ih =>
    have last : ∀ d ∈ m.entries, d.1 < e.1 := fun d hd =>
      (List.pairwise_append.mp ascending).2.2 d hd e List.mem_cons_self
    have put : (m.insert e.1 e.2).entries = m.entries ++ [e] := put_last last
    rw [List.foldl_cons, ih (by rw [put]; simpa using ascending), put]
    simp

theorem entries_ofList {entries : List (String × α)} (ascending : Ascending entries) :
    (ofList entries).entries = entries := entries_foldl_insert (m := ∅) ascending

/-- What is found in a map of entries is one of them. -/
theorem mem_of_get?_ofList {entries : List (String × α)} {key : String} {value : α}
    (h : (ofList entries).get? key = some value) : (key, value) ∈ entries := by
  have from_any (entries : List (String × α)) (m : SortedMap α)
      (h : (entries.foldl (fun m e => m.insert e.1 e.2) m).get? key = some value) :
      (key, value) ∈ entries ∨ m.get? key = some value := by
    induction entries generalizing m with
    | nil => exact .inr h
    | cons e entries ih =>
      rcases ih (m.insert e.1 e.2) h with later | before
      · exact .inl (List.mem_cons_of_mem _ later)
      · rw [get?_insert] at before
        split at before
        next own =>
          cases before
          exact .inl (own ▸ List.mem_cons_self)
        next => exact .inr before
  exact (from_any entries ∅ h).resolve_right (by simp)

theorem ext_entries {m n : SortedMap α} (same : m.entries = n.entries) : m = n := by
  cases m
  cases n
  simpa using same

/-- Maps are told apart by looking up. -/
theorem ext_get? {m n : SortedMap α} (same : ∀ key, m.get? key = n.get? key) : m = n := by
  apply ext_entries
  have members (e : String × α) : e ∈ m.entries ↔ e ∈ n.entries := by
    rw [mem_entries_iff, mem_entries_iff, same]
  have distinct (m : SortedMap α) : m.entries.Nodup := by
    apply List.Pairwise.imp _ m.ascending
    rintro a _ less rfl
    exact String.lt_irrefl _ less
  refine List.Perm.eq_of_pairwise (fun a b _ _ less greater => ?_) m.ascending n.ascending
    ((List.perm_ext_iff_of_nodup (distinct m) (distinct n)).mpr members)
  exact absurd (String.lt_trans less greater) (String.lt_irrefl _)

theorem insert_comm (m : SortedMap α) {key other : String} (different : key ≠ other) (v w : α) :
    (m.insert key v).insert other w = (m.insert other w).insert key v := by
  apply ext_get?
  intro wanted
  simp only [get?_insert]
  by_cases at_key : key = wanted
  · have not_other : other ≠ wanted := fun same => different (at_key.trans same.symm)
    rw [if_neg not_other, if_pos at_key, if_pos at_key]
  · rw [if_neg at_key, if_neg at_key]

@[simp]
theorem ofList_entries (m : SortedMap α) : ofList m.entries = m :=
  ext_entries (entries_ofList m.ascending)

theorem pairwise_keys (m : SortedMap α) : m.keys.Pairwise (· < ·) :=
  List.pairwise_map.mpr m.ascending

theorem length_keys (m : SortedMap α) : m.keys.length = m.size := by simp [keys, size]

/-- Maps with the same keys have one size. -/
theorem size_congr {β : Type v} {m : SortedMap α} {n : SortedMap β}
    (same : ∀ key, (m.get? key).isSome ↔ (n.get? key).isSome) : m.size = n.size := by
  have keys (key : String) : key ∈ m.keys ↔ key ∈ n.keys := by
    rw [m.mem_keys_iff, n.mem_keys_iff]
    exact same key
  rw [← m.length_keys, ← n.length_keys]
  exact ((List.perm_ext_iff_of_nodup m.nodup_keys n.nodup_keys).mpr keys).length_eq

theorem get?_filter_eq_some {m : SortedMap α} {keep : String → α → Bool} {key : String}
    {value : α} :
    (m.filter keep).get? key = some value ↔ m.get? key = some value ∧ keep key value := by
  rw [← mem_entries_iff, ← mem_entries_iff, filter, List.mem_filter]

theorem contains_iff_mem_keys (m : SortedMap α) (key : String) : m.contains key ↔ key ∈ m.keys := by
  rw [contains_eq_isSome_get?, mem_keys_iff]

end SortedMap

end Lookalike
