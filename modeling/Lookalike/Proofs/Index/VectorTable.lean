import Lookalike.Index.VectorTable
import Lookalike.Proofs.SortedMap

/-!
# Tables of vectors

What each operation on a table does to later lookups. The identities with a given beginning lie
side by side in the sorted table, so the scan that removes a file finds every identity that starts
with the path of the file and a number sign, whichever file it belongs to. All vectors of a table
have the recorded length.
-/

namespace Lookalike.VectorTable

/-- Every vector has the length that is recorded. -/
def Uniform (t : VectorTable) : Prop := ∀ id v, t.get? id = some v → t.dimension = some v.size

theorem contains_eq_isSome_get? (t : VectorTable) (id : String) :
    t.contains id = (t.get? id).isSome := t.vectors.contains_eq_isSome_get? id

section Beginnings

theorem startsWith_iff (start text : String) :
    startsWith start text ↔ ∃ rest, text.toList = start.toList ++ rest := by
  rw [startsWith, List.isPrefixOf_iff_prefix]
  constructor
  · rintro ⟨rest, same⟩
    exact ⟨rest, same.symm⟩
  · rintro ⟨rest, same⟩
    exact ⟨rest, same.symm⟩

/-- Whatever lies between a beginning and a text with that beginning has it too. -/
theorem prefix_of_between {start a b : List Char} (above : ¬a < start) (below : a < b)
    (begun : start <+: b) : start <+: a := by
  induction start generalizing a b with
  | nil => exact List.nil_prefix
  | cons c start ih =>
    obtain ⟨rest, rfl⟩ := begun
    cases a with
    | nil => exact absurd (List.nil_lt_cons c start) above
    | cons d a =>
      rw [List.cons_lt_cons_iff] at above
      rw [List.cons_append, List.cons_lt_cons_iff] at below
      rcases below with less | ⟨rfl, below⟩
      · exact absurd (.inl less) above
      · have inner := ih (fun h => above (.inr ⟨rfl, h⟩)) below ⟨rest, rfl⟩
        exact List.cons_prefix_cons.mpr ⟨rfl, inner⟩

theorem startsWith_of_between {start a b : String} (above : ¬a < start) (below : a < b)
    (begun : startsWith start b) : startsWith start a := by
  rw [startsWith, List.isPrefixOf_iff_prefix] at begun ⊢
  exact prefix_of_between above below begun

theorem not_lt_of_startsWith {start text : String} (begun : startsWith start text) :
    ¬text < start := by
  rw [startsWith, List.isPrefixOf_iff_prefix] at begun
  obtain ⟨rest, same⟩ := begun
  rw [String.lt_iff, ← same]
  generalize start.toList = chars
  induction chars with
  | nil => exact List.not_lt_nil _
  | cons c chars ih =>
    rw [List.cons_append, List.cons_lt_cons_iff]
    rintro (less | ⟨_, less⟩)
    · exact Char.lt_irrefl c less
    · exact ih less

/-- From the place of a beginning on, the texts with it come first. -/
theorem mem_takeWhile {start : String} {ids : List String} (ascending : ids.Pairwise (· < ·))
    (above : ∀ a ∈ ids, ¬a < start) (id : String) :
    id ∈ ids.takeWhile (startsWith start) ↔ id ∈ ids ∧ startsWith start id := by
  induction ids with
  | nil => simp
  | cons first ids ih =>
    have ⟨later, ascending⟩ := List.pairwise_cons.mp ascending
    by_cases begun : startsWith start first
    · have others := ih ascending fun a ha => above a (List.mem_cons_of_mem first ha)
      rw [List.takeWhile_cons_of_pos begun, List.mem_cons, List.mem_cons, others]
      constructor
      · rintro (rfl | ⟨member, begun⟩)
        · exact ⟨.inl rfl, begun⟩
        · exact ⟨.inr member, begun⟩
      · rintro ⟨rfl | member, begun⟩
        · exact .inl rfl
        · exact .inr ⟨member, begun⟩
    · rw [List.takeWhile_cons_of_neg begun]
      simp only [List.not_mem_nil, List.mem_cons, false_iff]
      rintro ⟨rfl | member, begun_later⟩
      · exact begun begun_later
      · have outside := above first List.mem_cons_self
        exact begun (startsWith_of_between outside (later id member) begun_later)

/-- In an ascending list the texts with a beginning are those from its place up to the first
without it. -/
theorem mem_scan {start : String} {ids : List String} (ascending : ids.Pairwise (· < ·))
    (id : String) :
    id ∈ (ids.dropWhile (· < start)).takeWhile (startsWith start) ↔
      id ∈ ids ∧ startsWith start id := by
  induction ids with
  | nil => simp
  | cons first ids ih =>
    have ⟨later, rest_ascending⟩ := List.pairwise_cons.mp ascending
    by_cases before : first < start
    · rw [List.dropWhile_cons_of_pos (by simpa using before), ih rest_ascending, List.mem_cons]
      constructor
      · rintro ⟨member, begun⟩
        exact ⟨.inr member, begun⟩
      · rintro ⟨rfl | member, begun⟩
        · exact absurd before (not_lt_of_startsWith begun)
        · exact ⟨member, begun⟩
    · rw [List.dropWhile_cons_of_neg (by simpa using before)]
      refine mem_takeWhile ascending (fun a ha => ?_) id
      rcases List.mem_cons.mp ha with rfl | ha
      · exact before
      · intro less
        exact before (String.lt_trans (later a ha) less)

theorem pairwise_ids (t : VectorTable) : t.ids.Pairwise (· < ·) := t.vectors.pairwise_keys

theorem mem_idsFrom (t : VectorTable) (start id : String) :
    id ∈ t.idsFrom start ↔ t.contains id ∧ startsWith start id := by
  rw [idsFrom, mem_scan t.pairwise_ids, contains, SortedMap.contains_iff_mem_keys]
  rfl

end Beginnings

section Changes

variable {t : VectorTable}

@[simp]
theorem get?_ofDimension (dimension : Option Nat) (id : String) :
    (ofDimension dimension).get? id = none := rfl

theorem get?_upsert {u : VectorTable} {key : String} {v : Embedding} (h : t.upsert key v = .ok u)
    (id : String) : u.get? id = if key = id then some v else t.get? id := by
  simp only [upsert] at h
  split at h
  next =>
    split at h
    next =>
      cases h
      simp [get?]
    next => cases h
  next =>
    cases h
    simp [get?]

@[simp]
theorem get?_remove (t : VectorTable) (gone id : String) :
    (t.remove gone).get? id = if gone = id then none else t.get? id := by
  simp [remove, get?]

theorem get?_foldl_remove (gone : List String) (t : VectorTable) (id : String) :
    (gone.foldl remove t).get? id = if id ∈ gone then none else t.get? id :=
  look_foldl_removal get? get?_remove gone t id

/-- Removing a file removes every identity that starts as the identities of the file do. -/
theorem get?_removeFile (t : VectorTable) (filePath id : String) :
    (t.removeFile filePath).2.get? id =
      if startsWith (Chunk.idStart filePath) id then none else t.get? id := by
  rw [removeFile, get?_foldl_remove]
  simp only [mem_idsFrom, contains_eq_isSome_get?]
  cases t.get? id <;> simp

theorem dimension_foldl_remove (gone : List String) (t : VectorTable) :
    (gone.foldl remove t).dimension = t.dimension :=
  read_foldl dimension remove (fun _ _ => rfl) gone t

theorem uniform_ofDimension (dimension : Option Nat) : (ofDimension dimension).Uniform := by
  intro id v found
  cases found

theorem uniform_upsert {u : VectorTable} (uniform : t.Uniform) {key : String} {v : Embedding}
    (h : t.upsert key v = .ok u) : u.Uniform := by
  intro id w found
  rw [get?_upsert h] at found
  simp only [upsert] at h
  split at h
  next expected known =>
    split at h
    next same =>
      cases h
      split at found
      next =>
        cases found
        exact known.trans (congrArg some same)
      next => exact uniform id w found
    next => cases h
  next unknown =>
    cases h
    split at found
    next =>
      cases found
      rfl
    next =>
      have := uniform id w found
      rw [unknown] at this
      cases this

theorem uniform_remove (uniform : t.Uniform) (gone : String) : (t.remove gone).Uniform := by
  intro id v found
  rw [get?_remove] at found
  split at found
  next => cases found
  next => exact uniform id v found

theorem uniform_removeFile (uniform : t.Uniform) (filePath : String) :
    (t.removeFile filePath).2.Uniform := by
  intro id v found
  rw [get?_removeFile] at found
  split at found
  next => cases found
  next =>
    rw [removeFile, dimension_foldl_remove]
    exact uniform id v found

end Changes

end Lookalike.VectorTable
