/-!
# Sorting

A list is sorted by sorting its halves and merging them, for any relation that tells which of two
items may stand first. Main statements: the result holds the same items (`perm_sorted`), and they
are in order if the relation is total and transitive (`pairwise_sorted`).
-/

namespace Lookalike

variable {α : Type u}

section Merge

variable (before : α → α → Bool)

/-- Puts an item and what a continuation does after it among the items of a list: those that must
stand before the item come first. -/
def weave (x : α) (continuation : List α → List α) : List α → List α
  | [] => x :: continuation []
  | y :: ys =>
    if before x y then x :: continuation (y :: ys) else y :: weave x continuation ys

/-- Merges two sorted lists. -/
def merged : List α → List α → List α
  | [] => fun ys => ys
  | x :: xs => weave before x (merged xs)

theorem perm_merged (xs ys : List α) : (merged before xs ys).Perm (xs ++ ys) := by
  induction xs generalizing ys with
  | nil => exact .refl ys
  | cons x xs ih =>
    simp only [merged]
    induction ys with
    | nil => exact (ih []).cons x
    | cons y ys ih_ys =>
      simp only [weave]
      split
      · exact (ih (y :: ys)).cons x
      · exact (ih_ys.cons y).trans List.perm_middle.symm

theorem pairwise_merged (total : ∀ a b, before a b ∨ before b a)
    (transitive : ∀ a b c, before a b → before b c → before a c) {xs ys : List α}
    (hx : xs.Pairwise (before · ·)) (hy : ys.Pairwise (before · ·)) :
    (merged before xs ys).Pairwise (before · ·) := by
  induction xs generalizing ys with
  | nil => exact hy
  | cons x xs ih =>
    have ⟨x_first, hx⟩ := List.pairwise_cons.mp hx
    simp only [merged]
    induction ys with
    | nil =>
      refine List.pairwise_cons.mpr ⟨fun z hz => ?_, ih hx hy⟩
      have := (perm_merged before xs []).mem_iff.mp hz
      exact x_first z (by simpa using this)
    | cons y ys ih_ys =>
      have ⟨y_first, hy_tail⟩ := List.pairwise_cons.mp hy
      simp only [weave]
      split
      next less =>
        refine List.pairwise_cons.mpr ⟨fun z hz => ?_, ih hx hy⟩
        have := (perm_merged before xs (y :: ys)).mem_iff.mp hz
        simp only [List.mem_append, List.mem_cons] at this
        rcases this with hz | rfl | hz
        · exact x_first z hz
        · exact less
        · exact transitive x y z less (y_first z hz)
      next not_less =>
        have greater := (total x y).resolve_left not_less
        refine List.pairwise_cons.mpr ⟨fun z hz => ?_, ih_ys hy_tail⟩
        have := (perm_merged before (x :: xs) ys).mem_iff.mp hz
        simp only [List.mem_append, List.mem_cons] at this
        rcases this with (rfl | hz) | hz
        · exact greater
        · exact transitive y x z greater (x_first z hz)
        · exact y_first z hz

end Merge

/-- Sorts a list by a relation. -/
def sorted (before : α → α → Bool) (xs : List α) : List α :=
  if xs.length < 2 then xs
  else
    merged before (sorted before (xs.take (xs.length / 2)))
      (sorted before (xs.drop (xs.length / 2)))
termination_by xs.length
decreasing_by all_goals simp only [List.length_take, List.length_drop]; omega

theorem perm_sorted (before : α → α → Bool) (xs : List α) : (sorted before xs).Perm xs := by
  fun_induction sorted before xs with
  | case1 => exact .refl _
  | case2 xs _ ih_front ih_back =>
    have halves := (perm_merged before _ _).trans (ih_front.append ih_back)
    rwa [List.take_append_drop] at halves

theorem pairwise_sorted (before : α → α → Bool) (total : ∀ a b, before a b ∨ before b a)
    (transitive : ∀ a b c, before a b → before b c → before a c) (xs : List α) :
    (sorted before xs).Pairwise (before · ·) := by
  fun_induction sorted before xs with
  | case1 xs short =>
    match xs, short with
    | [], _ => exact .nil
    | [x], _ => exact List.pairwise_singleton _ x
  | case2 xs _ ih_front ih_back =>
    exact pairwise_merged before total transitive ih_front ih_back

end Lookalike
