import Lookalike.Proofs.Group.Duplicates

/-!
# Stricter options refine the groups

A higher threshold removes links, a wanted role removes nodes, and a larger least size removes
groups. The nodes that are left are a part of the nodes in their order, so that links and chains of
links can be followed in the larger graph: a component of the smaller graph lies in one of the
larger graph, which has at least its size and so is listed too.
-/

namespace Lookalike.Group

/-- Options that ask for no less: each of them differs at most by being stricter. -/
structure Stricter (loose strict : GroupOptions) : Prop where
  threshold : loose.threshold ≤ strict.threshold ∨ loose.threshold = strict.threshold
  minSize : loose.minSize ≤ strict.minSize
  kind : loose.kind = none ∨ loose.kind = strict.kind

section Embedding

/-- The nodes of a graph as nodes of a larger one, with the places where they stand in it. -/
structure Embeds (small large : List Node) (place : Nat → Nat) : Prop where
  injective : Function.Injective place
  same : ∀ i, small[i]? = large[place i]?

variable {small large : List Node} {place : Nat → Nat} {low high : Float32} {i j : Nat}

theorem Embeds.adjacent (e : Embeds small large place) (le : low ≤ high ∨ low = high)
    (h : Adjacent small high i j) : Adjacent large low (place i) (place j) := by
  obtain ⟨different, a, b, at_i, at_j, similar⟩ := h
  refine ⟨fun equal => different (e.injective equal), a, b, ?_, ?_, ?_⟩
  · rw [← e.same, at_i]
  · rw [← e.same, at_j]
  · rcases le with le | rfl
    · exact Number.single_le_trans le similar
    · exact similar

/-- Chains of links of the smaller graph are chains of links of the larger one. -/
theorem Embeds.connected (e : Embeds small large place) (le : low ≤ high ∨ low = high)
    (h : Connected small high i j) : Connected large low (place i) (place j) := by
  induction h with
  | rel i j link => exact .rel _ _ (e.adjacent le link)
  | refl => exact .refl _
  | symm i j _ ih => exact ih.symm
  | trans i j k _ _ ih ih' => exact ih.trans _ _ _ ih'

/-- A component of the smaller graph lies in a component of the larger one. -/
theorem Embeds.component (e : Embeds small large place) (le : low ≤ high ∨ low = high)
    {p q : List Nat} (hp : IsComponent small high p) (hq : IsComponent large low q) (in_p : i ∈ p)
    (in_q : place i ∈ q) : p.map place ⊆ q := by
  intro k member
  obtain ⟨j, j_member, rfl⟩ := List.mem_map.mp member
  exact (hq.closed _ in_q _).mpr (e.connected le ((hp.closed i in_p j).mp j_member))

theorem Embeds.chunks (e : Embeds small large place) {p q : List Nat} (lies : p.map place ⊆ q) :
    (nodesAt small p).map (·.1) ⊆ (nodesAt large q).map (·.1) := by
  intro c member
  obtain ⟨i, in_p, a, at_i, chunk⟩ := mem_chunks_nodesAt.mp member
  refine mem_chunks_nodesAt.mpr ⟨place i, lies (List.mem_map_of_mem in_p), a, ?_, chunk⟩
  rw [← e.same, at_i]

end Embedding

section Refinement

variable {catalogue : Catalogue} {table : VectorTable} {loose strict : GroupOptions}
  {looseBits strictBits : Nat → UInt32}

theorem exists_embeds (catalogue : Catalogue) (table : VectorTable)
    (kind : loose.kind = none ∨ loose.kind = strict.kind) :
    ∃ place,
      Embeds (nodes catalogue table strict.kind) (nodes catalogue table loose.kind) place := by
  have part : (nodes catalogue table strict.kind).Sublist (nodes catalogue table loose.kind) := by
    apply List.Sublist.filterMap
    rcases kind with none | same
    · simp only [none, Option.all_none, List.filter_true]
      exact List.filter_sublist
    · rw [same]
  obtain ⟨place, same⟩ := List.sublist_iff_exists_orderEmbedding_getElem?_eq.mp part
  exact ⟨place, place.injective, same⟩

/-- Every group under stricter options is a part of exactly one group under looser ones. -/
theorem find_refines (stricter : Stricter loose strict) :
    ∀ g ∈ find strictBits catalogue table strict,
      ∃! h, h ∈ find looseBits catalogue table loose ∧ g.members ⊆ h.members := by
  intro g hg
  obtain ⟨n, p, at_n, rfl⟩ := (mem_find_iff strictBits catalogue table strict).mp hg
  obtain ⟨component, large⟩ :=
    (mem_listed_iff catalogue table strict).mp (List.mem_of_getElem? at_n)
  obtain ⟨place, embeds⟩ := exists_embeds catalogue table stricter.kind
  obtain ⟨i, in_p⟩ := List.exists_mem_of_ne_nil _ component.inhabited
  obtain ⟨a, at_i⟩ : ∃ a, (nodes catalogue table strict.kind)[i]? = some a :=
    ⟨_, List.getElem?_eq_getElem (component.inside i in_p)⟩
  have at_place := (embeds.same i).symm.trans at_i
  obtain ⟨q, q_component, in_q⟩ := exists_component loose.threshold
    (List.getElem?_eq_some_iff.mp at_place).1
  have lies := embeds.component stricter.threshold component q_component in_p in_q
  have size : p.length ≤ q.length := by
    have distinct := component.ascending.nodup.map embeds.injective
    have bound := distinct.length_le_of_subset lies
    rwa [List.length_map] at bound
  have q_listed : q ∈ listed catalogue table loose := by
    refine (mem_listed_iff catalogue table loose).mpr ⟨q_component, ?_⟩
    have := stricter.minSize
    omega
  obtain ⟨m, at_m⟩ := List.mem_iff_getElem?.mp q_listed
  have part := embeds.chunks lies
  have found : ofNodes (m + 1) (nodesAt (nodes catalogue table loose.kind) q) ∈
      find looseBits catalogue table loose :=
    (mem_find_iff looseBits catalogue table loose).mpr ⟨m, q, at_m, rfl⟩
  refine ⟨_, ⟨found, part⟩, ?_⟩
  rintro h ⟨hh, within⟩
  have shared : a.1 ∈ (nodesAt (nodes catalogue table strict.kind) p).map (·.1) :=
    mem_chunks_nodesAt.mpr ⟨i, in_p, a, at_i, rfl⟩
  exact find_eq_of_mem hh found (within shared) (part shared)

/-- A chunk of a given role, the text of which is its identity. -/
def chunkSample (id : String) (kind : Kind) : Chunk :=
  { id, kind, name := none, filePath := "", language := .javascript, scope := ""
    span := ⟨1, 1, 1, 1⟩, contentHash := "", text := id, facts := {} }

def catalogueSample : Catalogue :=
  ((Catalogue.empty.set (chunkSample "a" .function)).set (chunkSample "b" .component)).set
    (chunkSample "c" .function)

def tableSample : VectorTable :=
  { dimension := some 2, vectors := .ofList [("a", #[1, 0]), ("b", #[1, 1]), ("c", #[1, 0])] }

def looseSample : GroupOptions := { threshold := 0.5 }

def strictSample : GroupOptions := { threshold := 0.9, kind := some .function }

/-- The bits of a score that is no number where they are all clear. -/
def clearBits : Nat → UInt32 := fun _ => 0

/-- A higher threshold and a wanted role leave two of three members. -/
theorem find_refines_strictSample :
    ((find clearBits catalogueSample tableSample looseSample).map (·.members.map (·.id))) =
        [["a", "b", "c"]] ∧
      ((find clearBits catalogueSample tableSample strictSample).map (·.members.map (·.id))) =
        [["a", "c"]] ∧
      ∀ g ∈ find clearBits catalogueSample tableSample strictSample,
        ∃! h, h ∈ find clearBits catalogueSample tableSample looseSample ∧
          g.members ⊆ h.members :=
  ⟨by decide +kernel, by decide +kernel,
    find_refines ⟨.inl (by decide +kernel), by decide, .inl rfl⟩⟩

end Refinement

end Lookalike.Group
