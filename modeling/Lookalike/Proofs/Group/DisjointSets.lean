import Lookalike.Group.DisjointSets
import Mathlib.Data.List.Nodup
import Mathlib.Logic.Relation

/-!
# What disjoint sets represent

In a forest every number climbs to a root in finitely many steps. Halving a path shortens climbs and
leaves every number with its root, and hanging one root below another joins two trees. So after any
unions and searches the search finds equal roots for exactly those numbers that the unions connect,
and its bound on the steps is never reached: a climb passes no number twice.
-/

namespace Lookalike.DisjointSets

open Relation (EqvGen)

section Climbing

/-- A number leads to the root of its tree in so many steps. -/
inductive Climbs (parent : Array Nat) : Nat → Nat → Nat → Prop
  | root {r : Nat} (top : parentOf parent r = r) : Climbs parent 0 r r
  | step {k x r : Nat} (up : parentOf parent x ≠ x) (rest : Climbs parent k (parentOf parent x) r) :
      Climbs parent (k + 1) x r

variable {parent : Array Nat} {k l x y r s : Nat}

theorem Climbs.top (h : Climbs parent k x r) : parentOf parent r = r := by
  induction h with
  | root top => exact top
  | step _ _ ih => exact ih

theorem Climbs.unique (h : Climbs parent k x r) (g : Climbs parent l x s) : k = l ∧ r = s := by
  induction h generalizing l with
  | root top =>
    cases g with
    | root => exact ⟨rfl, rfl⟩
    | step up => exact absurd top up
  | step up _ ih =>
    cases g with
    | root top => exact absurd top up
    | step _ rest =>
      obtain ⟨rfl, rfl⟩ := ih rest
      exact ⟨rfl, rfl⟩

theorem lt_size_of_up (up : parentOf parent x ≠ x) : x < parent.size := by
  by_contra outside
  exact up (by simp [parentOf, Array.getElem?_eq_none (Nat.le_of_not_lt outside)])

/-- The numbers on the way up, without the root: they differ, since each is at its own height. -/
theorem Climbs.passed (h : Climbs parent k x r) :
    ∃ way : List Nat, way.length = k ∧ way.Nodup ∧ ∀ y ∈ way, y < parent.size ∧
      ∃ height, 0 < height ∧ height ≤ k ∧ Climbs parent height y r := by
  induction h with
  | root => exact ⟨[], rfl, List.nodup_nil, by simp⟩
  | @step k x r up rest ih =>
    obtain ⟨way, length, distinct, passes⟩ := ih
    have whole : Climbs parent (k + 1) x r := .step up rest
    have not_again : x ∉ way := by
      intro member
      obtain ⟨_, height, _, lower, climb⟩ := passes x member
      have same := (whole.unique climb).1
      omega
    refine ⟨x :: way, by simp [length], List.nodup_cons.mpr ⟨not_again, distinct⟩, ?_⟩
    intro y member
    rcases List.mem_cons.mp member with rfl | member
    · exact ⟨lt_size_of_up up, k + 1, by omega, Nat.le_refl _, whole⟩
    · obtain ⟨inside, height, positive, lower, climb⟩ := passes y member
      exact ⟨inside, height, positive, by omega, climb⟩

/-- No climb has more steps than the forest has numbers. -/
theorem Climbs.le_size (h : Climbs parent k x r) : k ≤ parent.size := by
  obtain ⟨way, length, distinct, passes⟩ := h.passed
  have within : way ⊆ List.range parent.size := fun y member =>
    List.mem_range.mpr (passes y member).1
  have bound := distinct.length_le_of_subset within
  rwa [length, List.length_range] at bound

/-- The number is in the tree of a root. -/
def RootedAt (parent : Array Nat) (x r : Nat) : Prop := ∃ k, Climbs parent k x r

theorem RootedAt.unique (h : RootedAt parent x r) (g : RootedAt parent x s) : r = s := by
  obtain ⟨_, h⟩ := h
  obtain ⟨_, g⟩ := g
  exact (h.unique g).2

theorem RootedAt.top (h : RootedAt parent x r) : parentOf parent r = r := by
  obtain ⟨_, h⟩ := h
  exact h.top

theorem RootedAt.self (h : RootedAt parent x r) : RootedAt parent r r := ⟨0, .root h.top⟩

/-- Every number leads to a root, and the forest has the parents of its numbers. -/
structure Forest (parent : Array Nat) : Prop where
  within : ∀ x < parent.size, parentOf parent x < parent.size
  grounded : ∀ x, ∃ r, RootedAt parent x r

theorem Forest.root_lt (f : Forest parent) (inside : x < parent.size) (h : RootedAt parent x r) :
    r < parent.size := by
  obtain ⟨k, h⟩ := h
  induction h with
  | root => exact inside
  | step _ _ ih => exact ih (f.within _ inside)

end Climbing

section Changes

variable {parent : Array Nat} {k x y r s : Nat}

theorem parentOf_set (inside : x < parent.size) (above y : Nat) :
    parentOf (parent.setIfInBounds x above) y = if y = x then above else parentOf parent y := by
  by_cases same : y = x
  · subst same
    simp [parentOf, inside]
  · simp [parentOf, Array.getElem?_setIfInBounds_ne (Ne.symm same), same]

/-- Halving the path from a number makes no climb longer. -/
theorem Climbs.halved (up : parentOf parent x ≠ x) (h : Climbs parent k y r) :
    ∃ l ≤ k, Climbs (parent.setIfInBounds x (parentOf parent (parentOf parent x))) l y r := by
  have look := parentOf_set (lt_size_of_up up) (parentOf parent (parentOf parent x))
  induction k using Nat.strongRecOn generalizing y with
  | ind k ih =>
    by_cases here : y = x
    · subst here
      cases h with
      | root top => exact absurd top up
      | @step k _ _ _ rest =>
        by_cases top : parentOf parent (parentOf parent y) = parentOf parent y
        · -- The parent is the root, so nothing is skipped.
          obtain ⟨rfl, rfl⟩ := rest.unique (.root top)
          have now : parentOf (parent.setIfInBounds y (parentOf parent (parentOf parent y))) y =
              parentOf parent y := by rw [look, if_pos rfl, top]
          refine ⟨1, Nat.le_refl _, .step (fun same => up (now.symm.trans same)) ?_⟩
          rw [now]
          exact .root ((look _).trans ((if_neg up).trans top))
        · cases rest with
          | root => exact absurd ‹_› top
          | @step k _ _ _ rest =>
            obtain ⟨l, shorter, climb⟩ := ih k (by omega) rest
            have other : parentOf parent (parentOf parent y) ≠ y := by
              intro same
              have whole : Climbs parent (k + 1 + 1) y r := .step up (.step top rest)
              rw [same] at rest
              have := (whole.unique rest).1
              omega
            refine ⟨l + 1, by omega, .step (by rw [look, if_pos rfl]; exact other) ?_⟩
            rwa [look, if_pos rfl]
    · cases h with
      | root top => exact ⟨0, Nat.le_refl _, .root (by rw [look, if_neg here, top])⟩
      | @step k _ _ way rest =>
        obtain ⟨l, shorter, climb⟩ := ih k (by omega) rest
        refine ⟨l + 1, by omega, .step (by rw [look, if_neg here]; exact way) ?_⟩
        rwa [look, if_neg here]

/-- Hanging one root below another moves the numbers of its tree, and no others. -/
theorem RootedAt.hung {low high : Nat} (inside : low < parent.size)
    (low_top : parentOf parent low = low) (high_top : parentOf parent high = high)
    (different : low ≠ high) (h : RootedAt parent y r) :
    RootedAt (parent.setIfInBounds low high) y (if r = low then high else r) := by
  have look := parentOf_set inside high
  have high_root : Climbs (parent.setIfInBounds low high) 0 high high :=
    .root (by rw [look, if_neg (Ne.symm different), high_top])
  obtain ⟨k, h⟩ := h
  induction h with
  | @root r top =>
    by_cases same : r = low
    · subst same
      refine ⟨1, .step ?_ ?_⟩
      · rw [look, if_pos rfl]
        exact Ne.symm different
      · rw [look, if_pos rfl, if_pos rfl]
        exact high_root
    · rw [if_neg same]
      exact ⟨0, .root (by rw [look, if_neg same, top])⟩
  | @step k x r up rest ih =>
    obtain ⟨l, climb⟩ := ih
    have not_low : x ≠ low := fun same => up (same ▸ low_top)
    refine ⟨l + 1, .step ?_ ?_⟩
    · rw [look, if_neg not_low]
      exact up
    · rwa [look, if_neg not_low]

theorem Forest.set (f : Forest parent) {above : Nat} (inside : x < parent.size)
    (above_inside : above < parent.size)
    (grounded : ∀ y, ∃ r, RootedAt (parent.setIfInBounds x above) y r) :
    Forest (parent.setIfInBounds x above) where
  within := by
    intro y bound
    rw [Array.size_setIfInBounds] at bound ⊢
    rw [parentOf_set inside]
    split
    · exact above_inside
    · exact f.within y bound
  grounded := grounded

end Changes

section Searching

/-- What a search leaves of a forest: every number keeps its root. -/
structure Kept (parent later : Array Nat) : Prop where
  forest : Forest later
  size : later.size = parent.size
  roots : ∀ y r, RootedAt later y r ↔ RootedAt parent y r

theorem Kept.trans {a b c : Array Nat} (h : Kept a b) (g : Kept b c) : Kept a c :=
  ⟨g.forest, g.size.trans h.size, fun y r => (g.roots y r).trans (h.roots y r)⟩

variable {parent : Array Nat} {k x r : Nat}

theorem Forest.halved (f : Forest parent) (up : parentOf parent x ≠ x) :
    Kept parent (parent.setIfInBounds x (parentOf parent (parentOf parent x))) := by
  have inside := lt_size_of_up up
  have kept (y r : Nat) (h : RootedAt parent y r) :
      RootedAt (parent.setIfInBounds x (parentOf parent (parentOf parent x))) y r := by
    obtain ⟨k, h⟩ := h
    obtain ⟨l, _, climb⟩ := h.halved up
    exact ⟨l, climb⟩
  refine ⟨f.set inside (f.within _ (f.within _ inside)) fun y => ?_, by simp, fun y r => ?_⟩
  · obtain ⟨r, h⟩ := f.grounded y
    exact ⟨r, kept y r h⟩
  · refine ⟨fun h => ?_, kept y r⟩
    obtain ⟨s, g⟩ := f.grounded y
    rwa [h.unique (kept y s g)]

/-- With enough steps for the climb, a search ends at the root. -/
theorem findWithin_climbs {fuel : Nat} (f : Forest parent) (h : Climbs parent k x r)
    (enough : k ≤ fuel) :
    (findWithin fuel parent x).1 = r ∧ Kept parent (findWithin fuel parent x).2 := by
  have unchanged : Kept parent parent := ⟨f, rfl, fun _ _ => Iff.rfl⟩
  induction fuel generalizing parent k x with
  | zero =>
    cases h with
    | root => exact ⟨rfl, unchanged⟩
    | step => omega
  | succ fuel ih =>
    simp only [findWithin]
    cases h with
    | root top =>
      rw [if_pos top]
      exact ⟨rfl, unchanged⟩
    | @step k _ _ up rest =>
      rw [if_neg up]
      have halved := f.halved up
      -- From the grandparent the climb is shorter than from the parent, unless that is the root.
      have above : ∃ j ≤ k, Climbs parent j (parentOf parent (parentOf parent x)) r := by
        cases rest with
        | root top =>
          rw [top]
          exact ⟨0, Nat.le_refl _, .root top⟩
        | @step j _ _ _ rest => exact ⟨j, by omega, rest⟩
      obtain ⟨j, j_le, climb⟩ := above
      obtain ⟨l, l_le, climb⟩ := climb.halved up
      obtain ⟨found, kept⟩ := ih halved.forest climb (by omega)
        ⟨halved.forest, rfl, fun _ _ => Iff.rfl⟩
      exact ⟨found, halved.trans kept⟩

/-- A search finds the root of a number and leaves every number in its tree. -/
theorem find_rooted {s : DisjointSets} (f : Forest s.parent) (h : RootedAt s.parent x r) :
    (s.find x).1 = r ∧ Kept s.parent (s.find x).2.parent := by
  obtain ⟨k, h⟩ := h
  exact findWithin_climbs f h h.le_size

/-- Two searches, one after the other, find the roots of two numbers. -/
theorem find_both {s : DisjointSets} (f : Forest s.parent) (a b : Nat) :
    ∃ r t, (s.find a).1 = r ∧ ((s.find a).2.find b).1 = t ∧
      Kept s.parent ((s.find a).2.find b).2.parent ∧ RootedAt s.parent a r ∧
      RootedAt s.parent b t := by
  obtain ⟨r, a_rooted⟩ := f.grounded a
  obtain ⟨t, b_rooted⟩ := f.grounded b
  obtain ⟨found_a, kept_a⟩ := find_rooted f a_rooted
  obtain ⟨found_b, kept_b⟩ := find_rooted kept_a.forest ((kept_a.roots b t).mpr b_rooted)
  exact ⟨r, t, found_a, found_b, kept_a.trans kept_b, a_rooted, b_rooted⟩

end Searching

section Joining

/-- Two numbers are in one tree. -/
def Joined (parent : Array Nat) (x y : Nat) : Prop :=
  ∃ r, RootedAt parent x r ∧ RootedAt parent y r

variable {parent later : Array Nat} {a b x y : Nat}

theorem Kept.joined (h : Kept parent later) : Joined later x y ↔ Joined parent x y := by
  simp only [Joined, h.roots]

theorem Joined.iff_eq {r s : Nat} (hx : RootedAt parent x r) (hy : RootedAt parent y s) :
    Joined parent x y ↔ r = s := by
  constructor
  · rintro ⟨t, gx, gy⟩
    rw [hx.unique gx, hy.unique gy]
  · rintro rfl
    exact ⟨r, hx, hy⟩

theorem Forest.joined_equivalence (f : Forest parent) : Equivalence (Joined parent) where
  refl := fun x => by
    obtain ⟨r, h⟩ := f.grounded x
    exact ⟨r, h, h⟩
  symm := fun ⟨r, hx, hy⟩ => ⟨r, hy, hx⟩
  trans := fun ⟨r, hx, hy⟩ ⟨s, gy, gz⟩ => ⟨r, hx, (hy.unique gy) ▸ gz⟩

/-- The relation with one more pair: what is related to the two members of the pair comes together.
-/
def WithPair (related : Nat → Nat → Prop) (a b x y : Nat) : Prop :=
  related x y ∨ related x a ∧ related b y ∨ related x b ∧ related a y

theorem withPair_swap (related : Nat → Nat → Prop) (a b x y : Nat) :
    WithPair related a b x y ↔ WithPair related b a x y := by
  rw [WithPair, WithPair, or_comm (a := related x a ∧ related b y)]

/-- Hanging one root below another joins their trees. -/
theorem Forest.hung (f : Forest parent) {low high : Nat} (low_inside : low < parent.size)
    (high_inside : high < parent.size) (low_root : RootedAt parent low low)
    (high_root : RootedAt parent high high) (different : low ≠ high) :
    Forest (parent.setIfInBounds low high) ∧ ∀ x y,
      Joined (parent.setIfInBounds low high) x y ↔ WithPair (Joined parent) low high x y := by
  have moved {y r : Nat} (h : RootedAt parent y r) :=
    h.hung low_inside low_root.top high_root.top different
  refine ⟨f.set low_inside high_inside fun y => ?_, fun x y => ?_⟩
  · obtain ⟨r, h⟩ := f.grounded y
    exact ⟨_, moved h⟩
  · obtain ⟨r, hx⟩ := f.grounded x
    obtain ⟨s, hy⟩ := f.grounded y
    rw [Joined.iff_eq (moved hx) (moved hy), WithPair, Joined.iff_eq hx hy,
      Joined.iff_eq hx low_root, Joined.iff_eq high_root hy, Joined.iff_eq hx high_root,
      Joined.iff_eq low_root hy]
    split <;> split <;> omega

/-- A union joins the trees of two numbers. -/
theorem union_joined {s : DisjointSets} (f : Forest s.parent) (ha : a < s.parent.size)
    (hb : b < s.parent.size) :
    Forest (s.union a b).parent ∧ (s.union a b).parent.size = s.parent.size ∧
      ∀ x y, Joined (s.union a b).parent x y ↔ WithPair (Joined s.parent) a b x y := by
  obtain ⟨r, t, found_a, found_b, kept, a_rooted, b_rooted⟩ := find_both f a b
  have a_after := (kept.roots a r).mpr a_rooted
  have b_after := (kept.roots b t).mpr b_rooted
  have pair (x y : Nat) : WithPair (Joined s.parent) a b x y ↔
      WithPair (Joined ((s.find a).2.find b).2.parent) r t x y := by
    have a_r : Joined s.parent a r := ⟨r, a_rooted, a_rooted.self⟩
    have b_t : Joined s.parent b t := ⟨t, b_rooted, b_rooted.self⟩
    have e := f.joined_equivalence
    have to_left (z : Nat) : Joined s.parent z a ↔ Joined s.parent z r :=
      ⟨fun h => e.trans h a_r, fun h => e.trans h (e.symm a_r)⟩
    have to_right (z : Nat) : Joined s.parent z b ↔ Joined s.parent z t :=
      ⟨fun h => e.trans h b_t, fun h => e.trans h (e.symm b_t)⟩
    have from_left (z : Nat) : Joined s.parent a z ↔ Joined s.parent r z :=
      ⟨fun h => e.trans (e.symm a_r) h, fun h => e.trans a_r h⟩
    have from_right (z : Nat) : Joined s.parent b z ↔ Joined s.parent t z :=
      ⟨fun h => e.trans (e.symm b_t) h, fun h => e.trans b_t h⟩
    simp only [WithPair, kept.joined, to_left, to_right, from_left, from_right]
  have r_inside := kept.forest.root_lt (kept.size ▸ ha) a_after
  have t_inside := kept.forest.root_lt (kept.size ▸ hb) b_after
  simp only [union, found_a, found_b]
  by_cases same : r = t
  · subst same
    rw [if_pos rfl]
    refine ⟨kept.forest, kept.size, fun x y => ?_⟩
    rw [pair, WithPair]
    refine ⟨.inl, ?_⟩
    rintro (h | ⟨h, g⟩ | ⟨h, g⟩)
    · exact h
    · exact kept.forest.joined_equivalence.trans h g
    · exact kept.forest.joined_equivalence.trans h g
  · rw [if_neg same]
    simp only [pair]
    split
    · have hung := kept.forest.hung r_inside t_inside a_after.self b_after.self same
      exact ⟨hung.1, by simpa using kept.size, hung.2⟩
    · have hung := kept.forest.hung t_inside r_inside b_after.self a_after.self (Ne.symm same)
      refine ⟨hung.1, by simpa using kept.size, fun x y => ?_⟩
      rw [hung.2, withPair_swap]

end Joining

section Representation

/-- The equivalence that one more edge generates. -/
theorem eqvGen_or_pair {edge : Nat → Nat → Prop} {a b x y : Nat} :
    EqvGen (fun u v => edge u v ∨ u = a ∧ v = b) x y ↔ WithPair (EqvGen edge) a b x y := by
  have old {u v : Nat} (h : EqvGen edge u v) : EqvGen (fun u v => edge u v ∨ u = a ∧ v = b) u v :=
    h.mono fun _ _ => .inl
  have new : EqvGen (fun u v => edge u v ∨ u = a ∧ v = b) a b := .rel _ _ (.inr ⟨rfl, rfl⟩)
  constructor
  · intro h
    induction h with
    | rel u v h =>
      rcases h with h | ⟨rfl, rfl⟩
      · exact .inl (.rel _ _ h)
      · exact .inr (.inl ⟨.refl _, .refl _⟩)
    | refl u => exact .inl (.refl u)
    | symm u v _ ih =>
      rcases ih with h | ⟨h, g⟩ | ⟨h, g⟩
      · exact .inl h.symm
      · exact .inr (.inr ⟨g.symm, h.symm⟩)
      · exact .inr (.inl ⟨g.symm, h.symm⟩)
    | trans u v w _ _ ih ih' =>
      rcases ih with h | ⟨h, g⟩ | ⟨h, g⟩ <;> rcases ih' with h' | ⟨h', g'⟩ | ⟨h', g'⟩
      · exact .inl (h.trans _ _ _ h')
      · exact .inr (.inl ⟨h.trans _ _ _ h', g'⟩)
      · exact .inr (.inr ⟨h.trans _ _ _ h', g'⟩)
      · exact .inr (.inl ⟨h, g.trans _ _ _ h'⟩)
      · exact .inr (.inl ⟨h, g'⟩)
      · exact .inl (h.trans _ _ _ g')
      · exact .inr (.inr ⟨h, g.trans _ _ _ h'⟩)
      · exact .inl (h.trans _ _ _ g')
      · exact .inr (.inr ⟨h, g'⟩)
  · rintro (h | ⟨h, g⟩ | ⟨h, g⟩)
    · exact old h
    · exact (old h).trans _ _ _ (new.trans _ _ _ (old g))
    · exact (old h).trans _ _ _ ((new.symm).trans _ _ _ (old g))

/-- The sets of the numbers below `n` are the classes of the equivalence that some edges generate.
-/
structure Represents (s : DisjointSets) (n : Nat) (edge : Nat → Nat → Prop) : Prop where
  forest : Forest s.parent
  size : s.parent.size = n
  joined : ∀ x y, Joined s.parent x y ↔ EqvGen edge x y

variable {s : DisjointSets} {n : Nat} {edge : Nat → Nat → Prop}

theorem represents_singletons (n : Nat) : Represents (singletons n) n fun _ _ => False := by
  have own (x : Nat) : parentOf (singletons n).parent x = x := by
    by_cases inside : x < n <;> simp [singletons, parentOf, inside]
  have root (x : Nat) : RootedAt (singletons n).parent x x := ⟨0, .root (own x)⟩
  refine ⟨⟨fun x inside => by rwa [own], fun x => ⟨x, root x⟩⟩, by simp [singletons], ?_⟩
  intro x y
  rw [Joined.iff_eq (root x) (root y)]
  constructor
  · rintro rfl
    exact .refl x
  · intro h
    induction h with
    | rel _ _ impossible => exact impossible.elim
    | refl => rfl
    | symm _ _ _ ih => exact ih.symm
    | trans _ _ _ _ _ ih ih' => exact ih.trans ih'

theorem Represents.union (h : Represents s n edge) {a b : Nat} (ha : a < n) (hb : b < n) :
    Represents (s.union a b) n fun x y => edge x y ∨ x = a ∧ y = b := by
  obtain ⟨forest, size, joined⟩ := union_joined h.forest (h.size ▸ ha) (h.size ▸ hb)
  refine ⟨forest, size.trans h.size, fun x y => ?_⟩
  rw [joined, eqvGen_or_pair]
  simp only [WithPair, h.joined]

theorem Represents.of_edges (h : Represents s n edge) {edge' : Nat → Nat → Prop}
    (same : ∀ x y, edge x y ↔ edge' x y) : Represents s n edge' := by
  have equal : edge = edge' := funext fun x => funext fun y => propext (same x y)
  rwa [← equal]

/-- The root that a search for a number finds. -/
theorem Represents.rooted (h : Represents s n edge) (x : Nat) :
    RootedAt s.parent x (s.find x).1 := by
  obtain ⟨r, rooted⟩ := h.forest.grounded x
  rwa [(find_rooted h.forest rooted).1]

theorem Represents.kept (h : Represents s n edge) (x : Nat) :
    Kept s.parent (s.find x).2.parent := (find_rooted h.forest (h.rooted x)).2

/-- Searches find equal roots for connected numbers only. -/
theorem Represents.find_eq_iff (h : Represents s n edge) (x y : Nat) :
    (s.find x).1 = (s.find y).1 ↔ EqvGen edge x y := by
  rw [← h.joined, Joined.iff_eq (h.rooted x) (h.rooted y)]

theorem Represents.find (h : Represents s n edge) (x : Nat) : Represents (s.find x).2 n edge := by
  have kept := h.kept x
  exact ⟨kept.forest, kept.size.trans h.size, fun _ _ => kept.joined.trans (h.joined _ _)⟩

/-- A search leaves the root of every number as it is. -/
theorem Represents.find_find (h : Represents s n edge) (x y : Nat) :
    ((s.find x).2.find y).1 = (s.find y).1 := by
  have rooted := ((h.kept x).roots y _).mp ((h.find x).rooted y)
  exact rooted.unique (h.rooted y)

end Representation

end Lookalike.DisjointSets
