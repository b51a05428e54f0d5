import Lookalike.Proofs.Group.Components
import Lookalike.Proofs.Index.Catalogue
import Lookalike.Proofs.SortedMap
import Lookalike.Query.Similar

/-!
# The first of a ranking

A query cuts its ranking before an identity is taken out of it, so it asks for one hit more where
one may be taken out. The hits that remain are the first of the ranking without that identity: if it
stands in the part that was asked for, the one more takes its place, and else that one is cut off
again. Only a machine word bounds what is asked for, and no table has more entries than that.
-/

namespace Lookalike

open Number (longBound)

theorem Number.isNaN_of_le {a b : Float32} (h : a ≤ b) : b.isNaN = false := by
  rw [Float32.isNaN_eq_decide_eq_nan, decide_eq_false_iff_not]
  rintro rfl
  have numbers := (Number.unpacked_le_iff _ _).mp ((Number.single_le_iff _ _).mp h)
  exact numbers.2.1 rfl

namespace VectorTable

/-- The list holds the identities whose vectors are at least so similar, without the excluded one,
each with its similarity; higher similarities come first, and equal ones in the order of the
identities. -/
structure IsRanking (t : VectorTable) (v : Embedding) (least : Float32) (exclude : Option String)
    (ranking : List ScoredId) : Prop where
  listed : ∀ hit, hit ∈ ranking ↔ exclude ≠ some hit.id ∧
    ∃ u, t.get? hit.id = some u ∧ hit.score = cosineSimilarity v u ∧ least ≤ hit.score
  ordered : ranking.Pairwise fun a b =>
    scoreRank b.score < scoreRank a.score ∨ a.score = b.score ∧ a.id < b.id

variable {t : VectorTable} {v : Embedding} {least : Float32} {exclude : Option String}
  {ranking other : List ScoredId}

section Unique

theorem IsRanking.nodup (h : t.IsRanking v least exclude ranking) : ranking.Nodup := by
  refine h.ordered.imp fun {a b} before same => ?_
  subst same
  rcases before with higher | ⟨_, lower⟩
  · exact absurd higher (Int.lt_irrefl _)
  · exact absurd lower (String.lt_irrefl _)

/-- There is one ranking. -/
theorem IsRanking.unique (h : t.IsRanking v least exclude ranking)
    (k : t.IsRanking v least exclude other) : ranking = other := by
  have same_members : ranking.Perm other :=
    (List.perm_ext_iff_of_nodup h.nodup k.nodup).mpr fun hit =>
      (h.listed hit).trans (k.listed hit).symm
  refine same_members.eq_of_pairwise (fun a b _ _ before after => ?_) h.ordered k.ordered
  rcases before with higher | ⟨same, lower⟩ <;> rcases after with higher' | ⟨same', lower'⟩
  · omega
  · rw [same'] at higher
    exact absurd higher (Int.lt_irrefl _)
  · rw [same] at higher'
    exact absurd higher' (Int.lt_irrefl _)
  · exact absurd (String.lt_trans lower lower') (String.lt_irrefl _)

end Unique

section Within

theorem nodup_ids_within (t : VectorTable) (v : Embedding) (least : Float32) :
    ((t.within v least).map (·.id)).Nodup := by
  have scored : ((t.vectors.entries.map fun entry =>
      (⟨entry.1, cosineSimilarity v entry.2⟩ : ScoredId)).map (·.id)).Nodup := by
    rw [List.map_map]
    exact SortedMap.nodup_keys t.vectors
  exact (((perm_sorted _ _).map _).nodup_iff).mpr ((List.filter_sublist.map _).nodup scored)

theorem length_within_le (t : VectorTable) (v : Embedding) (least : Float32) :
    (t.within v least).length ≤ t.size := by
  calc (t.within v least).length
      = _ := (perm_sorted _ _).length_eq
    _ ≤ _ := List.length_filter_le _ _
    _ = t.size := List.length_map _

/-- What a query cuts, without the excluded identity, is the ranking. -/
theorem isRanking_within (t : VectorTable) (v : Embedding) (least : Float32)
    (exclude : Option String) :
    t.IsRanking v least exclude ((t.within v least).filter fun hit => exclude ≠ some hit.id) where
  listed := by
    intro hit
    rw [List.mem_filter, mem_within, decide_eq_true_eq, and_comm]
  ordered := by
    have in_order := pairwise_sorted_of_ranks (fun hit : ScoredId => scoreRank hit.score)
      ScoredId.id (fun a b => by simp [ScoredId.precedes]) (nodup_ids_within t v least)
    refine (in_order.sublist List.filter_sublist).imp fun {a b} before => ?_
    exact before.imp id fun ⟨same, lower⟩ => ⟨scoreRank_inj same, lower⟩

end Within

end VectorTable

namespace Query

section Cut

/-- Where a test fails at most once, the first `n` that pass it are among the first `n + 1`. -/
theorem take_filter_take {α : Type u} {test : α → Bool} {xs : List α}
    (once : xs.Pairwise fun a b => test a ∨ test b) (n : Nat) :
    ((xs.take (n + 1)).filter test).take n = (xs.filter test).take n := by
  induction xs generalizing n with
  | nil => simp
  | cons x xs ih =>
    obtain ⟨with_first, once⟩ := List.pairwise_cons.mp once
    rw [List.take_succ_cons]
    by_cases passes : test x
    · cases n with
      | zero => rw [List.take_zero, List.take_zero]
      | succ n =>
        rw [List.filter_cons_of_pos passes, List.filter_cons_of_pos passes, List.take_succ_cons,
          List.take_succ_cons, ih once n]
    · have others : ∀ y ∈ xs, test y := fun y member => (with_first y member).resolve_left passes
      have some_others : ∀ y ∈ xs.take n, test y := fun y member =>
        others y (List.mem_of_mem_take member)
      rw [List.filter_cons_of_neg passes, List.filter_cons_of_neg passes,
        List.filter_eq_self.mpr others, List.filter_eq_self.mpr some_others, List.take_take,
        Nat.min_self]

variable {t : VectorTable} {v : Embedding} {least : Float32}

/-- Cutting before an identity is taken out comes to the same as cutting afterwards. -/
theorem take_query (t : VectorTable) (v : Embedding) (least : Float32) (exclude : Option String)
    (top : Nat) (fits : t.size < longBound) :
    ((t.query v (depth top exclude) least).filter fun hit => exclude ≠ some hit.id).take top =
      ((t.within v least).filter fun hit => exclude ≠ some hit.id).take top := by
  rw [VectorTable.query, depth]
  cases exclude with
  | none =>
    have all (xs : List ScoredId) : (xs.filter fun hit => (none : Option String) ≠ some hit.id) =
        xs := List.filter_eq_self.mpr fun _ _ => decide_eq_true (Option.some_ne_none _).symm
    rw [all, all, List.take_take, Option.isSome_none, if_neg Bool.false_ne_true, Nat.min_self]
  | some id =>
    -- The bound of a machine word cuts nothing off, since no ranking is longer.
    have bound := VectorTable.length_within_le t v least
    have enough : (t.within v least).take (min (top + 1) (longBound - 1)) =
        (t.within v least).take (top + 1) := by
      rw [List.take_eq_take_iff]
      omega
    rw [Option.isSome_some, if_pos rfl, enough]
    refine take_filter_take ?_ top
    refine (List.pairwise_map.mp (VectorTable.nodup_ids_within t v least)).imp fun {a b} apart => ?_
    simp only [ne_eq, Option.some.injEq, decide_eq_true_eq]
    grind

end Cut

section Shown

/-- The hits are the chunks of a ranking's identities, with their scores. -/
def Shows (catalogue : Catalogue) (hits : List Hit) (ranked : List ScoredId) : Prop :=
  hits.map (fun hit => (hit.chunk.id, hit.score)) = ranked.map (fun hit => (hit.id, hit.score)) ∧
    ∀ hit ∈ hits, catalogue.get? hit.chunk.id = some hit.chunk

variable {catalogue : Catalogue} {table : VectorTable} {hits : List Hit} {ranked : List ScoredId}

/-- Every identity with a vector has a chunk. -/
def Described (catalogue : Catalogue) (table : VectorTable) : Prop :=
  ∀ id, (table.get? id).isSome → (catalogue.get? id).isSome

/-- Identities that all have a chunk are shown one by one. -/
theorem shows_found (w : catalogue.WellFormed)
    (found : ∀ hit ∈ ranked, (catalogue.get? hit.id).isSome) :
    Shows catalogue
      (ranked.filterMap fun hit => (catalogue.get? hit.id).map (⟨·, hit.score⟩)) ranked := by
  induction ranked with
  | nil => exact ⟨rfl, fun hit absent => absurd absent List.not_mem_nil⟩
  | cons first ranked ih =>
    obtain ⟨x, at_first⟩ := Option.isSome_iff_exists.mp (found first List.mem_cons_self)
    have own : x.id = first.id := w.keyed _ _ at_first
    obtain ⟨others, found_others⟩ := ih fun hit member => found hit (List.mem_cons_of_mem _ member)
    simp only [List.filterMap_cons, at_first, Option.map_some]
    constructor
    · rw [List.map_cons, List.map_cons, others, own]
    · intro hit member
      rcases List.mem_cons.mp member with rfl | later
      · exact own ▸ at_first
      · exact found_others hit later

theorem Shows.take (shown : Shows catalogue hits ranked) (top : Nat) :
    Shows catalogue (hits.take top) (ranked.take top) := by
  constructor
  · rw [List.map_take, List.map_take, shown.1]
  · exact fun hit member => shown.2 hit (List.mem_of_mem_take member)

theorem Shows.length_eq (shown : Shows catalogue hits ranked) : hits.length = ranked.length := by
  have lengths := congrArg List.length shown.1
  rwa [List.length_map, List.length_map] at lengths

theorem Shows.mem_ranked (shown : Shows catalogue hits ranked) {hit : Hit} (member : hit ∈ hits) :
    (⟨hit.chunk.id, hit.score⟩ : ScoredId) ∈ ranked := by
  have listed := List.mem_map_of_mem (f := fun hit : Hit => (hit.chunk.id, hit.score)) member
  rw [shown.1] at listed
  obtain ⟨⟨id, score⟩, ranked_there, same⟩ := List.mem_map.mp listed
  cases same
  exact ranked_there

/-- The hits are the first of the ranking. -/
theorem shows_nearest (w : catalogue.WellFormed) (described : Described catalogue table)
    (fits : table.size < longBound) (vector : Embedding) (top : Nat) (threshold : Float32)
    (exclude : Option String) :
    Shows catalogue (nearest catalogue table vector top threshold exclude)
      (((table.within vector threshold).filter fun hit => exclude ≠ some hit.id).take top) := by
  rw [← take_query table vector threshold exclude top fits]
  refine (shows_found w fun hit member => ?_).take top
  have within := List.mem_of_mem_take (List.mem_of_mem_filter member)
  obtain ⟨u, stored, _⟩ := VectorTable.mem_within.mp within
  exact described hit.id (Option.isSome_of_eq_some stored)

end Shown

section Line

variable {catalogue : Catalogue} {table : VectorTable} {filePath : String} {line : UInt64}

theorem nearestToLine_of_chunk {chunk : Chunk} {vector : Embedding}
    (covering : catalogue.atLine? filePath line = .ok (some chunk))
    (stored : table.get? chunk.id = some vector) (top : Nat) (threshold : Float32) :
    nearestToLine catalogue table filePath line top threshold =
      .ok (nearest catalogue table vector top threshold (some chunk.id)) := by
  simp only [nearestToLine, covering, stored]

theorem nearestToLine_error_iff {top : Nat} {threshold : Float32} {e : IndexError} :
    nearestToLine catalogue table filePath line top threshold = .error e ↔
      catalogue.atLine? filePath line = .error e ∨
        e = .noChunkAtLocation filePath line.toNat ∧ ∃ found,
          catalogue.atLine? filePath line = .ok found ∧
          ∀ chunk, found = some chunk → table.get? chunk.id = none := by
  cases covering : catalogue.atLine? filePath line with
  | error cause => simp [nearestToLine, covering]
  | ok found =>
    cases found with
    | none => simp [nearestToLine, covering, eq_comm]
    | some chunk =>
      cases stored : table.get? chunk.id with
      | none => simp [nearestToLine, covering, stored, eq_comm]
      | some vector => simp [nearestToLine_of_chunk covering stored, stored]

end Line

/-- For every query there is one ranking, and its scores are numbers. The hits are the chunks of its
first entries, as many as are wanted. The query for a line is that for the vector of the chunk
there: it gives as many of the others as are wanted and near enough, and not the chunk itself. It
fails only where the line cannot be looked up, no chunk covers it, or the one that does has no
vector. -/
theorem nearest_first_of_ranking (catalogue : Catalogue) (table : VectorTable)
    (w : catalogue.WellFormed) (described : Described catalogue table)
    (fits : table.size < longBound) :
    (∀ vector threshold exclude, ∃ ranking,
      table.IsRanking vector threshold exclude ranking ∧
      (∀ other, table.IsRanking vector threshold exclude other → ranking = other) ∧
      (∀ hit ∈ ranking, hit.score.isNaN = false) ∧
      ∀ top, Shows catalogue (nearest catalogue table vector top threshold exclude)
        (ranking.take top)) ∧
    ∀ filePath line threshold,
      (∀ chunk vector, catalogue.atLine? filePath line = .ok (some chunk) →
        table.get? chunk.id = some vector → ∃ others,
        table.IsRanking vector threshold (some chunk.id) others ∧
        ∀ top, ∃ hits, nearestToLine catalogue table filePath line top threshold = .ok hits ∧
          Shows catalogue hits (others.take top) ∧ hits.length = min top others.length ∧
          ∀ hit ∈ hits, hit.chunk.id ≠ chunk.id) ∧
      ∀ top e, nearestToLine catalogue table filePath line top threshold = .error e ↔
        catalogue.atLine? filePath line = .error e ∨
          e = .noChunkAtLocation filePath line.toNat ∧ ∃ found,
            catalogue.atLine? filePath line = .ok found ∧
            ∀ chunk, found = some chunk → table.get? chunk.id = none := by
  refine ⟨fun vector threshold exclude => ?_, fun filePath line threshold => ⟨?_, ?_⟩⟩
  · have ranking := table.isRanking_within vector threshold exclude
    refine ⟨_, ranking, fun other => ranking.unique, fun hit member => ?_, fun top => ?_⟩
    · obtain ⟨_, u, _, _, enough⟩ := (ranking.listed hit).mp member
      exact Number.isNaN_of_le enough
    · exact shows_nearest w described fits vector top threshold exclude
  · intro chunk vector covering stored
    have ranking := table.isRanking_within vector threshold (some chunk.id)
    refine ⟨_, ranking, fun top => ?_⟩
    have shown := shows_nearest w described fits vector top threshold (some chunk.id)
    refine ⟨_, nearestToLine_of_chunk covering stored top threshold, shown, ?_, ?_⟩
    · rw [shown.length_eq, List.length_take]
    · intro hit member same
      have listed := List.mem_of_mem_take (shown.mem_ranked member)
      exact ((ranking.listed _).mp listed).1 (by rw [same])
  · exact fun top e => nearestToLine_error_iff

section Sample

/-- A chunk of one line. -/
def chunkOnLine (id : String) (line : UInt64) : Chunk :=
  { id, kind := .function, name := none, filePath := "x.js", language := .javascript, scope := ""
    span := ⟨line, 1, line, 1⟩, contentHash := "", text := id, facts := {} }

def catalogueSample : Catalogue :=
  ((Catalogue.empty.set (chunkOnLine "a" 1)).set (chunkOnLine "b" 2)).set (chunkOnLine "c" 3)

/-- The second vector is less similar to the others than they are to each other. -/
def tableSample : VectorTable :=
  { dimension := some 2, vectors := .ofList [("a", #[1, 0]), ("b", #[1, 1]), ("c", #[1, 0])] }

theorem described_tableSample : Described catalogueSample tableSample := by
  have stored : ∀ id ∈ tableSample.vectors.keys, (catalogueSample.get? id).isSome := by
    decide +kernel
  exact fun id present => stored id ((SortedMap.mem_keys_iff _ _).mpr present)

theorem nearest_first_of_ranking_tableSample :
    (nearestToLine catalogueSample tableSample "x.js" 3 1 0.5).toOption.map
      (·.map (·.chunk.id)) = some ["a"] ∧
    ∃ others, tableSample.IsRanking #[1, 0] 0.5 (some "c") others ∧
      ∀ top, ∃ hits, nearestToLine catalogueSample tableSample "x.js" 3 top 0.5 = .ok hits ∧
        Shows catalogueSample hits (others.take top) ∧ hits.length = min top others.length ∧
        ∀ hit ∈ hits, hit.chunk.id ≠ "c" :=
  have w : catalogueSample.WellFormed := Catalogue.wellFormed_set
    (Catalogue.wellFormed_set (Catalogue.wellFormed_set Catalogue.wellFormed_empty _) _) _
  ⟨by decide +kernel,
    ((nearest_first_of_ranking catalogueSample tableSample w described_tableSample
      (by decide +kernel)).2 "x.js" 3 0.5).1 (chunkOnLine "c" 3) #[1, 0] (by decide +kernel)
      (by decide +kernel)⟩

end Sample

end Query

end Lookalike
