import Lookalike.Proofs.Group.DisjointSets
import Mathlib.Data.Finset.Card

/-!
# Searches and unions in any order

A history is a list of searches and unions on numbers below `n`, run from singletons. Two things
hold after every call: the forest represents the unions of the history, and the size kept for a root
counts the numbers of its tree. Both follow from what one call does.

`findWithin` has a bound on its steps. `Settles` is the loop without one: it reads a parent, stops
at a root, and else points the number to its grandparent and goes on from there. A search that ends
at a root is a run of this loop, and every search on a forest does.
-/

namespace Lookalike.DisjointSets

open Relation (EqvGen)

section Looping

/-- From a number the loop ends at a root and leaves these parents. A number whose parent cannot be
read has no run. -/
inductive Settles : Array Nat → Nat → Nat → Array Nat → Prop
  | stop {parent : Array Nat} {x : Nat} (top : parent[x]? = some x) : Settles parent x x parent
  | next {parent later : Array Nat} {x above grandparent root : Nat}
      (up : parent[x]? = some above) (below : above ≠ x)
      (higher : parent[above]? = some grandparent)
      (rest : Settles (parent.setIfInBounds x grandparent) grandparent root later) :
      Settles parent x root later

variable {parent : Array Nat} {x r : Nat}

theorem getElem?_parent (inside : x < parent.size) : parent[x]? = some (parentOf parent x) := by
  simp [parentOf, inside]

/-- A bounded search that ends at a root is a run of the loop: it did not stop at its bound. -/
theorem findWithin_settles {fuel : Nat} (f : Forest parent) (inside : x < parent.size)
    (ended : parentOf (findWithin fuel parent x).2 (findWithin fuel parent x).1 =
      (findWithin fuel parent x).1) :
    Settles parent x (findWithin fuel parent x).1 (findWithin fuel parent x).2 := by
  induction fuel generalizing parent x with
  | zero => exact .stop ((getElem?_parent inside).trans (congrArg some ended))
  | succ fuel ih =>
    simp only [findWithin] at ended ⊢
    by_cases top : parentOf parent x = x
    · rw [if_pos top]
      exact .stop ((getElem?_parent inside).trans (congrArg some top))
    · rw [if_neg top] at ended ⊢
      have above_inside := f.within x inside
      have halved := f.halved top
      refine .next (getElem?_parent inside) top (getElem?_parent above_inside) ?_
      exact ih halved.forest (halved.size ▸ f.within _ above_inside) ended

theorem find_settles {s : DisjointSets} (f : Forest s.parent) (inside : x < s.parent.size) :
    Settles s.parent x (s.find x).1 (s.find x).2.parent := by
  obtain ⟨r, rooted⟩ := f.grounded x
  obtain ⟨found, kept⟩ := find_rooted f rooted
  refine findWithin_settles f inside ?_
  have top := ((kept.roots x r).mpr rooted).top
  rwa [← found] at top

end Looping

section Counting

variable {parent later : Array Nat} {s : DisjointSets} {a b low high x r : Nat}

open Classical in
/-- The numbers in the tree of a root. -/
noncomputable def tree (parent : Array Nat) (r : Nat) : Finset Nat :=
  (Finset.range parent.size).filter fun x => RootedAt parent x r

theorem mem_tree : x ∈ tree parent r ↔ x < parent.size ∧ RootedAt parent x r := by
  simp [tree]

/-- The size kept for a root counts its tree. -/
structure Weighed (s : DisjointSets) : Prop where
  room : s.size.size = s.parent.size
  counted : ∀ r < s.parent.size, RootedAt s.parent r r → s.size[r]? = some (tree s.parent r).card

theorem Weighed.weight_eq (w : Weighed s) (inside : r < s.parent.size)
    (root : RootedAt s.parent r r) : s.weight r = (tree s.parent r).card := by
  rw [weight, w.counted r inside root, Option.getD_some]

theorem Kept.tree_eq (h : Kept parent later) (r : Nat) : tree later r = tree parent r := by
  ext x
  rw [mem_tree, mem_tree, h.size, h.roots]

theorem weighed_singletons (n : Nat) : Weighed (singletons n) where
  room := by simp [singletons]
  counted := by
    intro r inside _
    have own {x : Nat} (within : x < n) : RootedAt (singletons n).parent x x :=
      ⟨0, .root (by simp [singletons, parentOf, within])⟩
    have size : (singletons n).parent.size = n := (represents_singletons n).size
    have alone : tree (singletons n).parent r = {r} := by
      ext x
      rw [mem_tree, Finset.mem_singleton]
      constructor
      · rintro ⟨within, rooted⟩
        exact (own (size ▸ within)).unique rooted
      · rintro rfl
        exact ⟨inside, own (size ▸ inside)⟩
    have within : r < n := size ▸ inside
    rw [alone, Finset.card_singleton]
    simp [singletons, within]

theorem Weighed.kept (w : Weighed s) (kept : Kept s.parent parent) :
    Weighed { s with parent } where
  room := w.room.trans kept.size.symm
  counted := by
    intro q inside root
    rw [kept.tree_eq]
    exact w.counted q (kept.size ▸ inside) ((kept.roots q q).mp root)

theorem Weighed.find (w : Weighed s) (f : Forest s.parent) (x : Nat) : Weighed (s.find x).2 := by
  obtain ⟨r, rooted⟩ := f.grounded x
  exact w.kept (find_rooted f rooted).2

/-- Exactly the numbers of the moved tree get another root. -/
theorem Forest.rooted_hung (f : Forest parent) (inside : low < parent.size)
    (low_root : RootedAt parent low low) (high_root : RootedAt parent high high)
    (different : low ≠ high) :
    RootedAt (parent.setIfInBounds low high) x r ↔
      r ≠ low ∧ (RootedAt parent x r ∨ r = high ∧ RootedAt parent x low) := by
  obtain ⟨q, rooted⟩ := f.grounded x
  have moved := rooted.hung inside low_root.top high_root.top different
  have now : RootedAt (parent.setIfInBounds low high) x r ↔ (if q = low then high else q) = r :=
    ⟨moved.unique, fun same => same ▸ moved⟩
  have before (p : Nat) : RootedAt parent x p ↔ q = p :=
    ⟨rooted.unique, fun same => same ▸ rooted⟩
  rw [now, before, before]
  split <;> omega

/-- Hanging one root below another, with the sizes added, keeps the sizes right. -/
theorem Weighed.hung (w : Weighed s) (f : Forest s.parent) (low_inside : low < s.parent.size)
    (high_inside : high < s.parent.size) (low_root : RootedAt s.parent low low)
    (high_root : RootedAt s.parent high high) (different : low ≠ high) :
    Weighed
      { parent := s.parent.setIfInBounds low high
        size := s.size.setIfInBounds high (s.weight high + s.weight low) } where
  room := by simpa using w.room
  counted := by
    intro q inside root
    have rooted (x q : Nat) :=
      f.rooted_hung (x := x) (r := q) low_inside low_root high_root different
    rw [Array.size_setIfInBounds] at inside
    by_cases here : q = high
    · -- The root above takes in the tree of the root below.
      subst here
      have joined : tree (s.parent.setIfInBounds low q) q =
          tree s.parent q ∪ tree s.parent low := by
        ext x
        rw [Finset.mem_union, mem_tree, mem_tree, mem_tree, rooted, Array.size_setIfInBounds]
        have := Ne.symm different
        tauto
      have apart : Disjoint (tree s.parent q) (tree s.parent low) := by
        refine Finset.disjoint_left.mpr fun x in_high in_low => different ?_
        exact (mem_tree.mp in_low).2.unique (mem_tree.mp in_high).2
      rw [joined, Finset.card_union_of_disjoint apart, ← w.weight_eq high_inside high_root,
        ← w.weight_eq low_inside low_root]
      exact Array.getElem?_setIfInBounds_self_of_lt (w.room ▸ high_inside)
    · -- Every other root keeps its tree.
      obtain ⟨other, old⟩ := (rooted q q).mp root
      have old_root : RootedAt s.parent q q := old.resolve_right fun impossible => here impossible.1
      have same : tree (s.parent.setIfInBounds low high) q = tree s.parent q := by
        ext x
        rw [mem_tree, mem_tree, rooted, Array.size_setIfInBounds]
        tauto
      rw [same, ← w.counted q inside old_root]
      exact Array.getElem?_setIfInBounds_ne (Ne.symm here)

theorem Weighed.union (w : Weighed s) (f : Forest s.parent) (ha : a < s.parent.size)
    (hb : b < s.parent.size) : Weighed (s.union a b) := by
  obtain ⟨r, t, found_a, found_b, kept, a_rooted, b_rooted⟩ := find_both f a b
  have weighed : Weighed ((s.find a).2.find b).2 := w.kept kept
  have a_after := (kept.roots a r).mpr a_rooted
  have b_after := (kept.roots b t).mpr b_rooted
  have r_inside := kept.forest.root_lt (kept.size ▸ ha) a_after
  have t_inside := kept.forest.root_lt (kept.size ▸ hb) b_after
  simp only [DisjointSets.union, found_a, found_b]
  by_cases same : r = t
  · rw [if_pos same]
    exact weighed
  · rw [if_neg same]
    split
    · exact weighed.hung kept.forest r_inside t_inside a_after.self b_after.self same
    · exact weighed.hung kept.forest t_inside r_inside b_after.self a_after.self (Ne.symm same)

end Counting

section Histories

/-- What a caller asks of the sets. -/
inductive Call
  | find (x : Nat)
  | union (a b : Nat)

/-- The numbers of a call are below `n`. -/
def Call.Below (n : Nat) : Call → Prop
  | .find x => x < n
  | .union a b => a < n ∧ b < n

instance (n : Nat) : (call : Call) → Decidable (call.Below n)
  | .find x => inferInstanceAs (Decidable (x < n))
  | .union a b => inferInstanceAs (Decidable (a < n ∧ b < n))

def Call.run (s : DisjointSets) : Call → DisjointSets
  | .find x => (s.find x).2
  | .union a b => s.union a b

/-- The sets after the calls, in order, on singletons. -/
def after (n : Nat) (calls : List Call) : DisjointSets := calls.foldl Call.run (singletons n)

/-- One of the calls unites two numbers. -/
def Unites (calls : List Call) (x y : Nat) : Prop := Call.union x y ∈ calls

variable {n : Nat} {s : DisjointSets} {edge : Nat → Nat → Prop}

/-- What one call does to sets that represent some edges. -/
theorem Represents.call (h : Represents s n edge) (w : Weighed s) {call : Call}
    (below : call.Below n) :
    Represents (call.run s) n (fun x y => edge x y ∨ call = .union x y) ∧
      Weighed (call.run s) := by
  cases call with
  | find z =>
    refine ⟨(h.find z).of_edges fun x y => ?_, w.find h.forest z⟩
    simp
  | union a b =>
    obtain ⟨ha, hb⟩ := below
    refine ⟨(h.union ha hb).of_edges fun x y => ?_, w.union h.forest (h.size ▸ ha) (h.size ▸ hb)⟩
    rw [Call.union.injEq, eq_comm (a := a), eq_comm (a := b)]

theorem represents_after {calls : List Call} (below : ∀ call ∈ calls, call.Below n) :
    Represents (after n calls) n (Unites calls) ∧ Weighed (after n calls) := by
  induction calls using List.reverseRecOn with
  | nil => exact ⟨(represents_singletons n).of_edges (by simp [Unites]), weighed_singletons n⟩
  | append_singleton calls call ih =>
    obtain ⟨represents, weighed⟩ := ih fun c member => below c (List.mem_append_left _ member)
    have step := represents.call weighed (below call (by simp))
    rw [after, List.foldl_append]
    refine ⟨step.1.of_edges fun x y => ?_, step.2⟩
    simp only [Unites, List.mem_append, List.mem_singleton]
    rw [eq_comm]

/-- The sets are the classes of the equivalence that some edges generate, and searches can be relied
on to find them. -/
structure Partitions (s : DisjointSets) (n : Nat) (edge : Nat → Nat → Prop) : Prop where
  /-- The forest has a parent for each number below `n`, and each is below `n` itself. -/
  numbers : s.parent.size = n
  parents : ∀ above ∈ s.parent, above < n
  /-- The loop of a search ends, at the root and with the parents that the search gives. -/
  ends : ∀ x < n, Settles s.parent x (s.find x).1 (s.find x).2.parent
  /-- A search changes no root and no size. -/
  keeps : ∀ x < n, (s.find x).2.size = s.size ∧ ∀ y, ((s.find x).2.find y).1 = (s.find y).1
  /-- Roots are equal for connected numbers only. -/
  connects : ∀ x < n, ∀ y < n, (s.find x).1 = (s.find y).1 ↔ EqvGen edge x y
  /-- The size of a root counts the members of its set. -/
  counts : ∀ r < n, s.parent[r]? = some r →
    s.size[r]? = some ((Finset.range n).filter fun x => (s.find x).1 = r).card

theorem Represents.partitions (h : Represents s n edge) (w : Weighed s) : Partitions s n edge where
  numbers := h.size
  parents := by
    intro above member
    obtain ⟨x, inside, rfl⟩ := Array.mem_iff_getElem.mp member
    have within := h.forest.within x inside
    rw [h.size] at within
    simpa [parentOf, inside] using within
  ends := fun _ inside => find_settles h.forest (inside.trans_eq h.size.symm)
  keeps := fun x _ => ⟨rfl, h.find_find x⟩
  connects := fun x _ y _ => h.find_eq_iff x y
  counts := by
    intro r inside top
    have root : RootedAt s.parent r r := ⟨0, .root (by rw [parentOf, top]; rfl)⟩
    have members : tree s.parent r = (Finset.range n).filter fun x => (s.find x).1 = r := by
      ext x
      rw [mem_tree, Finset.mem_filter, Finset.mem_range, h.size]
      have rooted := h.rooted x
      exact and_congr_right fun _ => ⟨rooted.unique, fun same => same ▸ rooted⟩
    rw [← members]
    exact w.counted r (inside.trans_eq h.size.symm) root

/-- After any calls on numbers below `n`, the sets are those that the unions among them connect. -/
theorem partitions_after_calls (n : Nat) (calls : List Call)
    (below : ∀ call ∈ calls, call.Below n) : Partitions (after n calls) n (Unites calls) := by
  obtain ⟨represents, weighed⟩ := represents_after below
  exact represents.partitions weighed

/-- Three unions among five numbers and a search. -/
theorem partitions_after_calls_fiveSample :
    (∀ call ∈ [Call.union 0 1, .union 3 4, .union 1 4, .find 0], call.Below 5) ∧
    Partitions (after 5 [.union 0 1, .union 3 4, .union 1 4, .find 0]) 5
      (Unites [.union 0 1, .union 3 4, .union 1 4, .find 0]) ∧
    ((after 5 [.union 0 1, .union 3 4, .union 1 4, .find 0]).find 0).1 = 0 ∧
    ((after 5 [.union 0 1, .union 3 4, .union 1 4, .find 0]).find 4).1 = 0 ∧
    ((after 5 [.union 0 1, .union 3 4, .union 1 4, .find 0]).find 2).1 = 2 ∧
    (after 5 [.union 0 1, .union 3 4, .union 1 4, .find 0]).size[0]? = some 4 :=
  ⟨by decide, partitions_after_calls 5 _ (by decide), by decide, by decide, by decide, by decide⟩

end Histories

end Lookalike.DisjointSets
