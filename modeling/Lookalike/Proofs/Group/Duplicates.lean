import Lookalike.Proofs.Group.Components

/-!
# Groups are connected components

The lists that the search makes of its sets are the classes of numbers with one root: each is opened
by its least member, and takes in the others in order. Main result: the groups are the connected
components that are large enough, one group for each, numbered in the order of their first members
and sorted by their scores.
-/

namespace Lookalike.Group

section Classes

/-- The numbers below `n` that have the root of `i`. -/
def classOf (root : Nat → Nat) (n i : Nat) : List Nat :=
  (List.range n).filter fun j => root j = root i

/-- The numbers below `n` that are first with their root. -/
def leaders (root : Nat → Nat) (n : Nat) : List Nat :=
  (List.range n).filter fun i => ∀ j < i, root j ≠ root i

variable {root : Nat → Nat} {i j n : Nat}

theorem mem_classOf : j ∈ classOf root n i ↔ j < n ∧ root j = root i := by simp [classOf]

theorem mem_leaders : i ∈ leaders root n ↔ i < n ∧ ∀ j < i, root j ≠ root i := by simp [leaders]

theorem pairwise_classOf (root : Nat → Nat) (n i : Nat) :
    (classOf root n i).Pairwise (· < ·) := List.pairwise_lt_range.filter _

theorem pairwise_leaders (root : Nat → Nat) (n : Nat) : (leaders root n).Pairwise (· < ·) :=
  List.pairwise_lt_range.filter _

/-- Every number has a leader. -/
theorem exists_leader (root : Nat → Nat) (inside : i < n) :
    ∃ l ∈ leaders root n, l ≤ i ∧ root l = root i := by
  induction i using Nat.strongRecOn with
  | ind i ih =>
    by_cases first : ∀ j < i, root j ≠ root i
    · exact ⟨i, mem_leaders.mpr ⟨inside, first⟩, Nat.le_refl _, rfl⟩
    · obtain ⟨j, lower, same⟩ : ∃ j < i, root j = root i := by
        by_contra none_lower
        exact first fun j lower same => none_lower ⟨j, lower, same⟩
      obtain ⟨l, leader, below, equal⟩ := ih j lower (by omega)
      exact ⟨l, leader, by omega, equal.trans same⟩

theorem classOf_succ (root : Nat → Nat) (n i : Nat) :
    classOf root (n + 1) i = classOf root n i ++ if root n = root i then [n] else [] := by
  rw [classOf, List.range_succ, List.filter_append, ← classOf]
  by_cases same : root n = root i <;> simp [same]

theorem leaders_succ (root : Nat → Nat) (n : Nat) :
    leaders root (n + 1) =
      leaders root n ++ if ∀ j < n, root j ≠ root n then [n] else [] := by
  rw [leaders, List.range_succ, List.filter_append, ← leaders]
  simp only [List.filter_cons, List.filter_nil, decide_eq_true_eq]

/-- The classes of the numbers below `n`, each under its root. -/
def classes (root : Nat → Nat) (n : Nat) : List (Nat × List Nat) :=
  (leaders root n).map fun i => (root i, classOf root n i)

theorem addToClass_of_new {r : Nat} {open_ : List (Nat × List Nat)} (new : ∀ c ∈ open_, c.1 ≠ r) :
    addToClass r i open_ = open_ ++ [(r, [i])] := by
  induction open_ with
  | nil => rfl
  | cons c rest ih =>
    obtain ⟨s, members⟩ := c
    have other : s ≠ r := new (s, members) List.mem_cons_self
    simp only [addToClass, if_neg other, List.cons_append]
    rw [ih fun c member => new c (List.mem_cons_of_mem _ member)]

theorem addToClass_of_known {r : Nat} {open_ : List (Nat × List Nat)}
    (distinct : (open_.map (·.1)).Nodup) (known : ∃ c ∈ open_, c.1 = r) :
    addToClass r i open_ = open_.map fun c => if c.1 = r then (c.1, c.2 ++ [i]) else c := by
  induction open_ with
  | nil => simp at known
  | cons c rest ih =>
    obtain ⟨s, members⟩ := c
    obtain ⟨unrepeated, distinct⟩ := List.nodup_cons.mp distinct
    by_cases here : s = r
    · subst here
      have others : rest.map (fun c => if c.1 = s then (c.1, c.2 ++ [i]) else c) = rest := by
        apply (List.map_congr_left ?_).trans rest.map_id
        intro c member
        exact if_neg fun same => unrepeated (List.mem_map.mpr ⟨c, member, same⟩)
      simp [addToClass, others]
    · obtain ⟨c, member, own⟩ := known
      have later : ∃ c ∈ rest, c.1 = r := by
        rcases List.mem_cons.mp member with rfl | member
        · exact absurd own here
        · exact ⟨c, member, own⟩
      simp only [addToClass, if_neg here, List.map_cons]
      rw [ih distinct later]

theorem nodup_roots (root : Nat → Nat) (n : Nat) : ((classes root n).map (·.1)).Nodup := by
  rw [classes, List.map_map, List.Nodup, List.pairwise_map]
  apply (pairwise_leaders root n).imp_of_mem
  intro i j _ leader lower
  exact (mem_leaders.mp leader).2 i lower

/-- The next number opens a class or is added to the class of its root. -/
theorem addToClass_classes (root : Nat → Nat) (n : Nat) :
    addToClass (root n) n (classes root n) = classes root (n + 1) := by
  by_cases first : ∀ j < n, root j ≠ root n
  · have new : ∀ c ∈ classes root n, c.1 ≠ root n := by
      rintro c member
      obtain ⟨i, leader, rfl⟩ := List.mem_map.mp member
      exact first i (mem_leaders.mp leader).1
    have own : classOf root n n = [] := by
      apply List.filter_eq_nil_iff.mpr
      intro j inside
      simpa using first j (List.mem_range.mp inside)
    rw [addToClass_of_new new, classes, classes, leaders_succ, if_pos first, List.map_append]
    congr 1
    · apply List.map_congr_left
      intro i leader
      have other : root n ≠ root i := Ne.symm (first i (mem_leaders.mp leader).1)
      rw [classOf_succ, if_neg other, List.append_nil]
    · simp [classOf_succ, own]
  · have known : ∃ c ∈ classes root n, c.1 = root n := by
      obtain ⟨j, lower, same⟩ : ∃ j < n, root j = root n := by
        by_contra none_lower
        exact first fun j lower same => none_lower ⟨j, lower, same⟩
      obtain ⟨l, leader, _, equal⟩ := exists_leader root lower
      exact ⟨_, List.mem_map.mpr ⟨l, leader, rfl⟩, equal.trans same⟩
    rw [addToClass_of_known (nodup_roots root n) known, classes, classes, leaders_succ,
      if_neg first, List.append_nil, List.map_map]
    apply List.map_congr_left
    intro i leader
    simp only [Function.comp_apply, classOf_succ]
    by_cases same : root i = root n
    · simp [same]
    · simp [same, Ne.symm same]

open DisjointSets (Represents)

variable {sets : DisjointSets} {edge : Nat → Nat → Prop}

/-- Sorting nodes into classes searches for their roots. The searches change the forest as they go,
but no root. -/
theorem foldl_addToClass (h : Represents sets n edge) (m : Nat) : ∃ later,
    Represents later n edge ∧ (∀ i, (later.find i).1 = (sets.find i).1) ∧
      (List.range m).foldl (fun (classes, (s : DisjointSets)) i =>
        let (root, s) := s.find i
        (addToClass root i classes, s)) ([], sets) =
      (classes (fun i => (sets.find i).1) m, later) := by
  induction m with
  | zero => exact ⟨sets, h, fun _ => rfl, rfl⟩
  | succ m ih =>
    obtain ⟨later, represents, roots, folded⟩ := ih
    refine ⟨(later.find m).2, represents.find m, fun i => ?_, ?_⟩
    · rw [represents.find_find, roots]
    · rw [List.range_succ, List.foldl_append, folded]
      simp only [List.foldl_cons, List.foldl_nil]
      rw [roots m, ← addToClass_classes]

/-- The lists made of the sets are the classes of numbers with one root. -/
theorem components_eq (h : Represents sets n edge) :
    components sets n =
      (leaders (fun i => (sets.find i).1) n).map (classOf (fun i => (sets.find i).1) n) := by
  obtain ⟨later, _, _, folded⟩ := foldl_addToClass h n
  simp only [components, folded, classes, List.map_map]
  rfl

end Classes

section Listing

variable {nodes : List Node} {threshold : Float32} {places p q : List Nat} {i : Nat}

theorem IsComponent.eq_of_mem (hp : IsComponent nodes threshold p)
    (hq : IsComponent nodes threshold q) (in_p : i ∈ p) (in_q : i ∈ q) : p = q := by
  have same (j : Nat) : j ∈ p ↔ j ∈ q := (hp.closed i in_p j).trans (hq.closed i in_q j).symm
  exact hp.ascending.eq_of_mem_iff hq.ascending same

open DisjointSets (Represents)

variable {sets : DisjointSets} {edge : Nat → Nat → Prop}

/-- The lists made of sets that connect as a graph does are the components of the graph. -/
theorem mem_components_iff (h : Represents sets nodes.length edge)
    (connects : ∀ i j, Relation.EqvGen edge i j ↔ Connected nodes threshold i j) :
    places ∈ components sets nodes.length ↔ IsComponent nodes threshold places := by
  have is_component {l : Nat} (inside : l < nodes.length) :
      IsComponent nodes threshold (classOf (fun i => (sets.find i).1) nodes.length l) := by
    have mem (j : Nat) : j ∈ classOf (fun i => (sets.find i).1) nodes.length l ↔
        Connected nodes threshold l j := by
      rw [mem_classOf, h.find_eq_iff, connects]
      constructor
      · exact fun connected => connected.2.symm
      · exact fun connected => ⟨connected.lt inside, connected.symm⟩
    refine ⟨List.ne_nil_of_mem ((mem l).mpr (.refl l)), fun i member => ?_,
      pairwise_classOf _ _ _, fun i member j => ?_⟩
    · exact (mem_classOf.mp member).1
    · rw [mem] at member ⊢
      exact ⟨fun connected => member.symm.trans _ _ _ connected,
        fun connected => member.trans _ _ _ connected⟩
  rw [components_eq h, List.mem_map]
  constructor
  · rintro ⟨l, leader, rfl⟩
    exact is_component (mem_leaders.mp leader).1
  · intro component
    obtain ⟨i, member⟩ := List.exists_mem_of_ne_nil _ component.inhabited
    obtain ⟨l, leader, _, same⟩ :=
      exists_leader (fun i => (sets.find i).1) (component.inside i member)
    refine ⟨l, leader, ?_⟩
    refine (is_component (mem_leaders.mp leader).1).eq_of_mem component (i := i) ?_ member
    exact mem_classOf.mpr ⟨component.inside i member, same.symm⟩

/-- The lists stand in the order of their first members. -/
theorem pairwise_components {n : Nat} (h : Represents sets n edge) :
    (components sets n).Pairwise fun p q => ∃ i ∈ p, ∀ j ∈ q, i < j := by
  rw [components_eq h, List.pairwise_map]
  apply (pairwise_leaders _ n).imp_of_mem
  intro l m l_leader m_leader lower
  refine ⟨l, mem_classOf.mpr ⟨(mem_leaders.mp l_leader).1, rfl⟩, fun j member => ?_⟩
  -- A member below `m` would have been the leader.
  have above : ¬j < m := fun below => (mem_leaders.mp m_leader).2 j below (mem_classOf.mp member).2
  omega

end Listing

section Groups

variable (nanBits : Nat → UInt32) (catalogue : Catalogue) (table : VectorTable)
  (options : GroupOptions)

/-- The components that become groups. -/
def listed : List (List Nat) :=
  let nodes := nodes catalogue table options.kind
  (components (linked table options.threshold nodes) nodes.length).filter fun c =>
    max options.minSize 2 ≤ c.length

theorem mem_listed_iff {places : List Nat} :
    places ∈ listed catalogue table options ↔
      IsComponent (nodes catalogue table options.kind) options.threshold places ∧
        max options.minSize 2 ≤ places.length := by
  rw [listed, List.mem_filter, decide_eq_true_iff, mem_components_iff
    (represents_linked table options.threshold _)
    (eqvGen_links_iff (vectored_nodes catalogue table options.kind))]

theorem pairwise_listed :
    (listed catalogue table options).Pairwise fun p q => ∃ i ∈ p, ∀ j ∈ q, i < j :=
  (pairwise_components (represents_linked table options.threshold _)).filter _

/-- The nodes at some places. -/
def nodesAt (nodes : List Node) (places : List Nat) : List Node := places.filterMap (nodes[·]?)

theorem perm_find :
    (find nanBits catalogue table options).Perm ((listed catalogue table options).zipIdx.map
      fun (places, n) => ofNodes (n + 1) (nodesAt (nodes catalogue table options.kind) places)) :=
  perm_sorted _ _

theorem mem_find_iff {g : Group} :
    g ∈ find nanBits catalogue table options ↔
      ∃ n places, (listed catalogue table options)[n]? = some places ∧
        g = ofNodes (n + 1) (nodesAt (nodes catalogue table options.kind) places) := by
  rw [(perm_find nanBits catalogue table options).mem_iff, List.mem_map]
  constructor
  · rintro ⟨⟨places, n⟩, member, rfl⟩
    exact ⟨n, places, List.mem_zipIdx_iff_getElem?.mp member, rfl⟩
  · rintro ⟨n, places, at_n, rfl⟩
    exact ⟨(places, n), List.mem_zipIdx_iff_getElem?.mpr at_n, rfl⟩

/-- Groups are numbered from one. -/
theorem perm_ids_find :
    ((find nanBits catalogue table options).map (·.id)).Perm
      (List.range' 1 (listed catalogue table options).length) := by
  apply ((perm_find nanBits catalogue table options).map _).trans
  rw [List.map_map]
  have numbers : (listed catalogue table options).zipIdx.map (fun e => e.2 + 1) =
      List.range' 1 (listed catalogue table options).length := by
    rw [← List.zipIdx_map_snd 1 (listed catalogue table options),
      List.zipIdx_eq_map_add (l := listed catalogue table options) (i := 1), List.map_map]
    apply List.map_congr_left
    intro e _
    exact Nat.add_comm _ _
  rw [← numbers]
  exact .refl _

/-- Groups are sorted by their scores, and by their numbers where these have one rank. -/
theorem pairwise_find :
    (find nanBits catalogue table options).Pairwise fun g h =>
      h.rank nanBits < g.rank nanBits ∨ g.rank nanBits = h.rank nanBits ∧ g.id < h.id :=
  pairwise_sorted_of_ranks (Group.rank nanBits) Group.id (fun g h => by simp [precedes])
    ((perm_ids_find nanBits catalogue table options).nodup_iff.mpr List.nodup_range')

variable {nanBits catalogue table options}

theorem mem_chunks_nodesAt {nodes : List Node} {places : List Nat} {c : Chunk} :
    c ∈ (nodesAt nodes places).map (·.1) ↔ ∃ i ∈ places, ∃ a, nodes[i]? = some a ∧ a.1 = c := by
  simp only [nodesAt, List.mem_map, List.mem_filterMap]
  grind

/-- A member of a group has a neighbour. -/
theorem exists_neighbour {nodes : List Node} {threshold : Float32} {places : List Nat} {i : Nat}
    (component : IsComponent nodes threshold places) (large : 2 ≤ places.length)
    (member : i ∈ places) : ∃ k, Adjacent nodes threshold i k := by
  obtain ⟨j, j_member, different⟩ : ∃ j ∈ places, j ≠ i := by
    by_contra alone
    have only : places ⊆ [i] := by
      intro j j_member
      by_contra other
      exact alone ⟨j, j_member, by simpa using other⟩
    have short := component.ascending.nodup.length_le_of_subset only
    simp only [List.length_singleton] at short
    omega
  have connected := (component.closed i member j).mp j_member
  rcases connected.neighbour with same | ⟨neighbour, _⟩
  · exact absurd same.symm different
  · exact neighbour

/-- Two groups that share a chunk are one. Where a chunk stands at two places, these have one
vector, and so a common neighbour. -/
theorem listed_eq_of_mem {p q : List Nat} {c : Chunk} (hp : p ∈ listed catalogue table options)
    (hq : q ∈ listed catalogue table options)
    (in_p : c ∈ (nodesAt (nodes catalogue table options.kind) p).map (·.1))
    (in_q : c ∈ (nodesAt (nodes catalogue table options.kind) q).map (·.1)) : p = q := by
  obtain ⟨component_p, large⟩ := (mem_listed_iff catalogue table options).mp hp
  obtain ⟨component_q, _⟩ := (mem_listed_iff catalogue table options).mp hq
  obtain ⟨i, i_member, a, at_i, rfl⟩ := mem_chunks_nodesAt.mp in_p
  obtain ⟨j, j_member, b, at_j, chunk⟩ := mem_chunks_nodesAt.mp in_q
  have vectored := vectored_nodes catalogue table options.kind
  have vector : a.2 = b.2 := by
    have a_vector := vectored a (List.mem_of_getElem? at_i)
    have b_vector := vectored b (List.mem_of_getElem? at_j)
    rw [chunk, a_vector] at b_vector
    exact Option.some.inj b_vector
  obtain ⟨k, link⟩ := exists_neighbour component_p (by omega) i_member
  have connected : Connected (nodes catalogue table options.kind) options.threshold i j := by
    by_cases same : j = k
    · exact same ▸ .rel _ _ link
    · have ⟨_, a', d, at_i', at_k, similar⟩ := link
      cases at_i.symm.trans at_i'
      have from_j : Adjacent (nodes catalogue table options.kind) options.threshold j k :=
        ⟨same, b, d, at_j, at_k, vector ▸ similar⟩
      exact (Relation.EqvGen.rel _ _ link).trans _ _ _ (.symm _ _ (.rel _ _ from_j))
  exact component_p.eq_of_mem component_q ((component_p.closed i i_member j).mpr connected) j_member

/-- No chunk is in two groups. -/
theorem find_eq_of_mem {g h : Group} {c : Chunk} (hg : g ∈ find nanBits catalogue table options)
    (hh : h ∈ find nanBits catalogue table options) (in_g : c ∈ g.members) (in_h : c ∈ h.members) :
    g = h := by
  obtain ⟨n, p, at_n, rfl⟩ := (mem_find_iff nanBits catalogue table options).mp hg
  obtain ⟨m, q, at_m, rfl⟩ := (mem_find_iff nanBits catalogue table options).mp hh
  have same := listed_eq_of_mem (List.mem_of_getElem? at_n) (List.mem_of_getElem? at_m) in_g in_h
  subst same
  have distinct : (listed catalogue table options).Nodup := by
    refine (pairwise_listed catalogue table options).imp fun {p q} before same => ?_
    subst same
    obtain ⟨i, member, least⟩ := before
    exact Nat.lt_irrefl i (least i member)
  have numbers : n = m := by
    obtain ⟨inside, _⟩ := List.getElem?_eq_some_iff.mp at_n
    exact (List.getElem?_inj inside distinct).mp (at_n.trans at_m.symm)
  rw [numbers]

/-- The chunks that are nodes: those of the wanted role with a vector. -/
theorem map_chunks_nodes (catalogue : Catalogue) (table : VectorTable) (kind : Option Kind) :
    (nodes catalogue table kind).map (·.1) =
      catalogue.chunks.filter fun c => (table.get? c.id).isSome && kind.all (c.kind = ·) := by
  have kept : (fun c : Chunk => ((table.get? c.id).map fun v => (c, v)).map (·.1)) =
      Option.guard fun c => (table.get? c.id).isSome := by
    funext c
    cases found : table.get? c.id <;> simp [Option.guard, found]
  rw [nodes, List.map_filterMap, kept, List.filterMap_eq_filter, List.filter_filter]

theorem nodesAt_range (nodes : List Node) : nodesAt nodes (List.range nodes.length) = nodes := by
  have every : (List.range nodes.length).map (nodes[·]?) = nodes.map some := by
    apply List.ext_getElem?
    intro i
    by_cases inside : i < nodes.length <;> simp [inside]
  calc nodesAt nodes (List.range nodes.length)
    _ = ((List.range nodes.length).map (nodes[·]?)).filterMap fun n => n :=
        by rw [List.filterMap_map]; rfl
    _ = (nodes.map some).filterMap fun n => n := by rw [every]
    _ = nodes := List.filterMap_map.trans List.filterMap_some

/-- The nodes of a component stand in the order of all nodes. -/
theorem IsComponent.sublist_nodes {nodes : List Node} {threshold : Float32} {places : List Nat}
    (component : IsComponent nodes threshold places) : (nodesAt nodes places).Sublist nodes := by
  have within : places.Sublist (List.range nodes.length) := by
    apply List.sublist_of_subperm_of_pairwise _ component.ascending List.pairwise_lt_range
    exact List.subperm_of_subset component.ascending.nodup fun i member =>
      List.mem_range.mpr (component.inside i member)
  have part := within.filterMap (nodes[·]?)
  rwa [← nodesAt, ← nodesAt, nodesAt_range] at part

/-- Members stand in the order of the catalogue. -/
theorem sublist_members {g : Group} (h : g ∈ find nanBits catalogue table options) :
    g.members.Sublist catalogue.chunks := by
  obtain ⟨n, places, at_n, rfl⟩ := (mem_find_iff nanBits catalogue table options).mp h
  obtain ⟨component, _⟩ :=
    (mem_listed_iff catalogue table options).mp (List.mem_of_getElem? at_n)
  have chunks_sublist := List.filter_sublist (p := fun c : Chunk =>
    (table.get? c.id).isSome && options.kind.all (c.kind = ·)) (l := catalogue.chunks)
  rw [← map_chunks_nodes] at chunks_sublist
  exact (component.sublist_nodes.map _).trans chunks_sublist

end Groups

end Lookalike.Group
