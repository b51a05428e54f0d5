import Lookalike.Path

/-!
# Components of joined paths

A path whose names are all proper ones adds its names to those of the path that it is joined to,
however that one ends.
-/

namespace Lookalike.Path

/-- The names between the slashes of a path. -/
def parts (path : String) : List (List Char) := path.toList.splitOn '/'

/-- The components that the parts of a path stand for, if it is not empty. -/
def ofParts : List (List Char) → List String
  | [] => []
  | first :: rest =>
    (if first.isEmpty then "/" else String.ofList first) :: (rest.filter isPlain).map String.ofList

theorem components_eq_ofParts {path : String} (h : path ≠ "") :
    components path = ofParts (parts path) := by
  have not_empty : path.isEmpty = false := by simpa using h
  rw [components, parts]
  cases path.toList.splitOn '/' with
  | nil => rfl
  | cons first rest => by_cases empty : first.isEmpty <;> simp [ofParts, empty, not_empty]

theorem ofParts_append {xs : List (List Char)} (h : xs ≠ []) (ys : List (List Char)) :
    ofParts (xs ++ ys) = ofParts xs ++ (ys.filter isPlain).map String.ofList := by
  cases xs with
  | nil => exact absurd rfl h
  | cons first xs => simp [ofParts]

theorem parts_ne_nil (path : String) : parts path ≠ [] := List.splitOn_ne_nil _ _

/-- All names of the path are proper ones. -/
def Plain (path : String) : Prop := ∀ part ∈ parts path, isPlain part

instance (path : String) : Decidable (Plain path) := inferInstanceAs (Decidable (∀ part ∈ _, _))

/-- The names of a path that has proper ones only. -/
def names (path : String) : List String := (parts path).map String.ofList

variable {base path : String}

theorem Plain.filter (h : Plain path) : (parts path).filter isPlain = parts path :=
  List.filter_eq_self.mpr h

theorem Plain.ne_empty (h : Plain path) : path ≠ "" := by
  rintro rfl
  have empty : isPlain [] = true := h [] (by simp [parts])
  simp [isPlain] at empty

theorem Plain.components (h : Plain path) : components path = names path := by
  rw [components_eq_ofParts h.ne_empty, names]
  have plain := h.filter
  have first_plain := h
  rw [Plain] at first_plain
  cases split : parts path with
  | nil => exact absurd split (parts_ne_nil path)
  | cons first rest =>
    rw [split] at plain first_plain
    have first_proper : isPlain first := first_plain first List.mem_cons_self
    have not_empty : first.isEmpty = false := by
      simp only [isPlain, Bool.and_eq_true, Bool.not_eq_true'] at first_proper
      exact first_proper.1
    rw [List.filter_cons_of_pos first_proper] at plain
    simp only [ofParts, not_empty, List.map_cons]
    rw [(List.cons.inj plain).2]
    simp

theorem Plain.not_startsWith (h : Plain path) : path.startsWith "/" = false := by
  rw [String.startsWith_string_eq_false_iff]
  rintro ⟨rest, begun⟩
  have empty : isPlain [] = true := h [] (by
    rw [parts, ← begun]
    simp [List.splitOn_cons_eq_if_modifyHead])
  simp [isPlain] at empty

theorem components_join (h : Plain path) :
    components (join base path) = components base ++ names path := by
  have rest := h.filter
  rw [join, h.not_startsWith]
  simp only [Bool.false_or]
  split
  next empty =>
    have same : base = "" := by simpa using empty
    subst same
    exact h.components
  next not_empty =>
    have base_ne : base ≠ "" := by simpa using not_empty
    split
    next ends =>
      rw [String.endsWith] at ends
      obtain ⟨front, shape⟩ := String.Slice.endsWith_string_iff.mp ends
      have shape : base.toList = front ++ ['/'] := by simpa using shape.symm
      have of_base : parts base = front.splitOn '/' ++ [[]] := by
        simp [parts, shape, List.splitOn_append_cons_self]
      have joined : parts (base ++ path) = front.splitOn '/' ++ parts path := by
        simp [parts, shape, List.splitOn_append_cons_self]
      have front_ne : front.splitOn '/' ≠ [] := List.splitOn_ne_nil _ _
      rw [components_eq_ofParts (by simp [base_ne]), components_eq_ofParts base_ne, joined, of_base,
        ofParts_append front_ne, ofParts_append front_ne, rest, names]
      simp [isPlain]
    next =>
      have joined : parts (base ++ "/" ++ path) = parts base ++ parts path := by
        simp [parts, List.splitOn_append_cons_self]
      rw [components_eq_ofParts (by simp), joined, ofParts_append (parts_ne_nil base), rest,
        ← components_eq_ofParts base_ne, names]

end Lookalike.Path
