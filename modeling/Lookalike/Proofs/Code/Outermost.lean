import Lookalike.Proofs.Code.Bindings
import Lookalike.Proofs.Code.Cutting
import Lookalike.Proofs.Text.Normal
import Mathlib.Data.List.Forall2
import Mathlib.Data.Option.Basic

/-!
# Outermost units

The walk over a tree finds the units that have no unit above them, each once and in source order. A
node is told by its address, the list of the places at which the way from the root to it turns off;
addresses in lexicographic order are nodes in source order. In a tree whose ranges are nested and in
order, the ranges of the units follow one another.
-/

namespace Lookalike

namespace CodeUnit

open SyntaxTree (way? row_induction)

/-- The unit at an address in a row of trees is outermost: the way to it leads over named nodes that
are no units. The scopes and the kinds above it are those of the row, and then those of the way. -/
structure StandsAt (lang : Language) (source : String) (scopes above : List String)
    (ts : List SyntaxTree) (address : List Nat) (p : Placed) : Prop where
  reached : ∃ crossed, way? ts address = some (crossed ++ [p.unit.anchor]) ∧
    (∀ t ∈ crossed, t.isNamed ∧ ofNode? lang source t = none) ∧
    p.scopes = scopes ++ (crossed.filter (·.kind ∈ lang.scopes)).map (scopeName source) ∧
    p.above = (crossed.map (·.kind)).reverse ++ above
  named : p.unit.anchor.isNamed
  matched : ofNode? lang source p.unit.anchor = some p.unit

/-- The unit at an address below the root of a tree is outermost. -/
abbrev OutermostAt (lang : Language) (source : String) (root : SyntaxTree) (address : List Nat)
    (p : Placed) : Prop :=
  StandsAt lang source [] [root.kind] root.children address p

section Matching

variable {lang : Language} {source : String} {t : SyntaxTree} {u : CodeUnit}

theorem anchor_of_ofBinding? (found : ofBinding? lang source t = some u) : u.anchor = t := by
  rw [ofBinding?_eq] at found
  split at found
  next =>
    split at found
    next =>
      cases found
      rfl
    next => cases found
  next =>
    obtain ⟨b, -, of_value⟩ := Option.bind_eq_some_iff.mp found
    obtain ⟨body, -, rfl⟩ := Option.map_eq_some_iff.mp of_value
    rfl

/-- A unit is anchored at the node that it is matched at. -/
theorem anchor_of_ofNode? (found : ofNode? lang source t = some u) : u.anchor = t := by
  simp only [ofNode?] at found
  split at found
  next =>
    cases found
    rfl
  next =>
    rcases (Option.orElse_eq_some _ _ _).mp found with bound | ⟨_, plain⟩
    · split at bound
      next => exact anchor_of_ofBinding? bound
      next => cases bound
    · split at plain
      next =>
        cases plain
        rfl
      next => cases plain

end Matching

section Walk

variable {lang : Language} {source : String} {scopes above : List String} {t : SyntaxTree}
variable {ts rest : List SyntaxTree} {u : CodeUnit} {i : Nat} {address : List Nat} {p : Placed}

/-- The scopes that hold below a node. -/
def scopesBelow (lang : Language) (source : String) (scopes : List String) (t : SyntaxTree) :
    List String :=
  if t.kind ∈ lang.scopes then scopes ++ [scopeName source t] else scopes

theorem scopesBelow_append (crossed : List SyntaxTree) :
    scopesBelow lang source scopes t ++
        (crossed.filter (·.kind ∈ lang.scopes)).map (scopeName source) =
      scopes ++ ((t :: crossed).filter (·.kind ∈ lang.scopes)).map (scopeName source) := by
  rw [scopesBelow, List.filter_cons]
  split <;> simp_all

theorem unitsFrom_of_some (found : ofNode? lang source t = some u) :
    unitsFrom lang source scopes above t = [{ unit := u, scopes, above }] := by
  cases t
  rw [unitsFrom, found]

theorem unitsFrom_of_none (none_here : ofNode? lang source t = none) :
    unitsFrom lang source scopes above t =
      unitsBelow lang source (scopesBelow lang source scopes t) (t.kind :: above) t.children := by
  cases t
  rw [unitsFrom, none_here]
  rfl

theorem way?_zero : SyntaxTree.way? (t :: rest) (0 :: address) =
    (way? t.children address).map (t :: ·) := rfl

/-- Only the way to the row itself has no nodes on it. -/
theorem eq_nil_of_way? {ts : List SyntaxTree} (way : way? ts address = some []) : address = [] := by
  cases address with
  | nil => rfl
  | cons i address =>
    rw [way?] at way
    split at way
    next => simp at way
    next => cases way

/-- No unit stands at the row itself. -/
theorem not_standsAt_nil (ts : List SyntaxTree) : ¬ StandsAt lang source scopes above ts [] p := by
  intro h
  obtain ⟨crossed, way, _⟩ := h.reached
  simp [way?] at way

theorem not_standsAt_of_nil (address : List Nat) :
    ¬ StandsAt lang source scopes above [] address p := by
  intro h
  obtain ⟨crossed, way, _⟩ := h.reached
  cases address <;> simp [way?] at way

/-- Which unit stands in the first tree of a row: the tree itself, or one below it if it is none. -/
theorem standsAt_zero_iff : StandsAt lang source scopes above (t :: rest) (0 :: address) p ↔
    t.isNamed ∧ ((address = [] ∧ ofNode? lang source t = some p.unit ∧
        p.scopes = scopes ∧ p.above = above) ∨
      (ofNode? lang source t = none ∧
        StandsAt lang source (scopesBelow lang source scopes t) (t.kind :: above) t.children
          address p)) := by
  constructor
  · intro h
    obtain ⟨crossed, way, clear, in_scopes, under⟩ := h.reached
    rw [way?_zero, Option.map_eq_some_iff] at way
    obtain ⟨below, way, same⟩ := way
    -- The way ends at the tree, or goes on below it.
    cases crossed with
    | nil =>
      obtain ⟨here, nothing⟩ := List.cons.inj same
      subst nothing
      refine ⟨here ▸ h.named, .inl ⟨eq_nil_of_way? way, here ▸ h.matched, ?_, ?_⟩⟩
      · simpa using in_scopes
      · simpa using under
    | cons first crossed =>
      obtain ⟨rfl, rfl⟩ := List.cons.inj same
      obtain ⟨named, none_here⟩ := clear t List.mem_cons_self
      refine ⟨named, .inr ⟨none_here, ⟨crossed, way, ?_, ?_, ?_⟩, h.named, h.matched⟩⟩
      · exact fun other member => clear other (List.mem_cons_of_mem t member)
      · rw [in_scopes, scopesBelow_append]
      · simpa using under
  · rintro ⟨named, ⟨rfl, found, in_scopes, under⟩ | ⟨none_here, h⟩⟩
    · have here : p.unit.anchor = t := anchor_of_ofNode? found
      refine ⟨⟨[], ?_, by simp, by simpa using in_scopes, by simpa using under⟩, ?_, ?_⟩
      · rw [here]
        rfl
      · rw [here]
        exact named
      · rw [here]
        exact found
    · obtain ⟨crossed, way, clear, in_scopes, under⟩ := h.reached
      refine ⟨⟨t :: crossed, ?_, ?_, ?_, ?_⟩, h.named, h.matched⟩
      · rw [way?_zero, way]
        rfl
      · intro other member
        rcases List.mem_cons.mp member with rfl | later
        · exact ⟨named, none_here⟩
        · exact clear other later
      · rw [in_scopes, scopesBelow_append]
      · simpa using under

theorem standsAt_succ_iff : StandsAt lang source scopes above (t :: rest) ((i + 1) :: address) p ↔
    StandsAt lang source scopes above rest (i :: address) p := by
  constructor
  · intro h
    exact ⟨h.reached, h.named, h.matched⟩
  · intro h
    exact ⟨h.reached, h.named, h.matched⟩

/-- The units of a walk with their addresses: in order, all of them, and no others. -/
structure Spotted (spots : List (List Nat × Placed)) (units : List Placed)
    (Stands : List Nat → Placed → Prop) : Prop where
  ordered : (spots.map (·.1)).Pairwise (· < ·)
  units_eq : spots.map (·.2) = units
  mem_iff : ∀ address p, (address, p) ∈ spots ↔ Stands address p

namespace Spotted

variable {spots later : List (List Nat × Placed)} {units others : List Placed}
variable {Stands Stands' : List Nat → Placed → Prop}

theorem congr (h : Spotted spots units Stands) (same : ∀ address p, Stands address p ↔
    Stands' address p) : Spotted spots units Stands' :=
  ⟨h.ordered, h.units_eq, fun address p => (h.mem_iff address p).trans (same address p)⟩

/-- The addresses below a tree are those of its children with the place of the tree in front. -/
theorem below (h : Spotted spots units Stands) (k : Nat) :
    Spotted (spots.map fun spot => (k :: spot.1, spot.2)) units fun address p =>
      ∃ tail, address = k :: tail ∧ Stands tail p where
  ordered := by
    rw [List.map_map, List.pairwise_map]
    exact (List.pairwise_map.mp h.ordered).imp fun before => List.cons_lt_cons_self.mpr before
  units_eq := by
    rw [← h.units_eq, List.map_map]
    rfl
  mem_iff := by
    intro address p
    simp only [List.mem_map, Prod.mk.injEq, Prod.exists, h.mem_iff]
    constructor
    · rintro ⟨tail, _, stands, rfl, rfl⟩
      exact ⟨tail, rfl, stands⟩
    · rintro ⟨tail, rfl, stands⟩
      exact ⟨tail, p, stands, rfl, rfl⟩

/-- Two walks, of which the second is at later addresses. -/
theorem append (h : Spotted spots units Stands) (h' : Spotted later others Stands')
    (before : ∀ address p address' p', Stands address p → Stands' address' p' →
      address < address') :
    Spotted (spots ++ later) (units ++ others) fun address p =>
      Stands address p ∨ Stands' address p where
  ordered := by
    rw [List.map_append, List.pairwise_append]
    refine ⟨h.ordered, h'.ordered, fun address first address' second => ?_⟩
    obtain ⟨⟨_, p⟩, in_front, rfl⟩ := List.mem_map.mp first
    obtain ⟨⟨_, p'⟩, in_back, rfl⟩ := List.mem_map.mp second
    exact before _ _ _ _ ((h.mem_iff _ _).mp in_front) ((h'.mem_iff _ _).mp in_back)
  units_eq := by rw [List.map_append, h.units_eq, h'.units_eq]
  mem_iff := by
    intro address p
    rw [List.mem_append, h.mem_iff, h'.mem_iff]

/-- Places that are counted from zero are those of the row. -/
theorem from_zero
    (h : Spotted spots units fun address p => ∃ i tail, address = (0 + i) :: tail ∧
      StandsAt lang source scopes above ts (i :: tail) p) :
    Spotted spots units (StandsAt lang source scopes above ts) := by
  refine h.congr fun address p => ?_
  simp only [Nat.zero_add]
  constructor
  · rintro ⟨i, tail, rfl, stands⟩
    exact stands
  · intro stands
    cases address with
    | nil => exact absurd stands (not_standsAt_nil _)
    | cons i tail => exact ⟨i, tail, rfl, stands⟩

end Spotted

/-- The first tree of a row, if the rows of its children are settled. -/
theorem exists_spots_first (scopes above : List String) (rest : List SyntaxTree) (k : Nat)
    (below : ∀ scopes above, ∃ spots, Spotted spots
      (unitsBelow lang source scopes above t.children)
      (StandsAt lang source scopes above t.children)) :
    ∃ spots, Spotted spots (if t.isNamed then unitsFrom lang source scopes above t else [])
      fun address p => ∃ tail, address = k :: tail ∧
        StandsAt lang source scopes above (t :: rest) (0 :: tail) p := by
  simp only [standsAt_zero_iff]
  by_cases named : t.isNamed
  · rw [if_pos named]
    cases matched : ofNode? lang source t with
    | some u =>
      rw [unitsFrom_of_some matched]
      refine ⟨[([k], { unit := u, scopes, above })], List.pairwise_singleton _ _, rfl, ?_⟩
      intro address p
      rw [List.mem_singleton, Prod.mk.injEq]
      constructor
      · rintro ⟨rfl, rfl⟩
        exact ⟨[], rfl, named, .inl ⟨rfl, rfl, rfl, rfl⟩⟩
      · rintro ⟨tail, rfl, -, ⟨rfl, same, in_scopes, under⟩ | ⟨none_here, -⟩⟩
        · cases p
          cases in_scopes
          cases under
          cases same
          exact ⟨rfl, rfl⟩
        · cases none_here
    | none =>
      obtain ⟨spots, spotted⟩ := below (scopesBelow lang source scopes t) (t.kind :: above)
      rw [unitsFrom_of_none matched]
      refine ⟨_, (spotted.below k).congr fun address p => ?_⟩
      simp [named]
  · rw [if_neg named]
    refine ⟨[], .nil, rfl, fun address p => ?_⟩
    simp [named]

/-- The walk over a row finds the outermost units in it, in the order of their addresses. The row
may be the end of a longer one, so the places in it are counted from a given one on. -/
theorem exists_spots_from (lang : Language) (source : String) (ts : List SyntaxTree) :
    ∀ (scopes above : List String) (k : Nat), ∃ spots,
      Spotted spots (unitsBelow lang source scopes above ts) fun address p =>
        ∃ i tail, address = (k + i) :: tail ∧
          StandsAt lang source scopes above ts (i :: tail) p := by
  induction ts using row_induction with
  | nil =>
    intro scopes above k
    refine ⟨[], .nil, ?_, ?_⟩
    · rw [unitsBelow]
      rfl
    · intro address p
      simp [not_standsAt_of_nil]
  | cons t rest below others =>
    intro scopes above k
    have settled : ∀ scopes above, ∃ spots, Spotted spots
        (unitsBelow lang source scopes above t.children)
        (StandsAt lang source scopes above t.children) := by
      intro scopes above
      obtain ⟨spots, spotted⟩ := below scopes above 0
      exact ⟨spots, spotted.from_zero⟩
    obtain ⟨front, in_front⟩ := exists_spots_first scopes above rest k settled
    obtain ⟨back, in_back⟩ := others scopes above (k + 1)
    have whole := in_front.append in_back (by
      rintro _ _ _ _ ⟨tail, rfl, -⟩ ⟨i, tail', rfl, -⟩
      exact List.cons_lt_cons_iff.mpr (.inl (by omega)))
    rw [unitsBelow]
    refine ⟨_, whole.congr fun address p => ?_⟩
    constructor
    · rintro (⟨tail, rfl, stands⟩ | ⟨i, tail, rfl, stands⟩)
      · exact ⟨0, tail, rfl, stands⟩
      · exact ⟨i + 1, tail, by rw [Nat.add_assoc, Nat.add_comm 1 i], standsAt_succ_iff.mpr stands⟩
    · rintro ⟨i, tail, rfl, stands⟩
      cases i with
      | zero => exact .inl ⟨tail, rfl, stands⟩
      | succ i =>
        exact .inr ⟨i, tail, by rw [Nat.add_assoc, Nat.add_comm 1 i], standsAt_succ_iff.mp stands⟩

end Walk

section Ranges

variable {lang : Language} {source : String} {scopes above : List String}
variable {ts : List SyntaxTree} {p : Placed}

/-- Every unit of a walk is anchored in one of the trees. -/
theorem exists_mem_nodes (member : p ∈ unitsBelow lang source scopes above ts) :
    ∃ t ∈ ts, p.unit.anchor ∈ t.nodes := by
  induction ts using row_induction generalizing scopes above with
  | nil =>
    rw [unitsBelow] at member
    cases member
  | cons t rest below others =>
    rw [unitsBelow, List.mem_append] at member
    rcases member with first | later
    · refine ⟨t, List.mem_cons_self, SyntaxTree.mem_nodes_iff.mpr ?_⟩
      split at first
      next =>
        cases matched : ofNode? lang source t with
        | some u =>
          rw [unitsFrom_of_some matched, List.mem_singleton] at first
          exact .inl (first ▸ anchor_of_ofNode? matched)
        | none =>
          rw [unitsFrom_of_none matched] at first
          exact .inr (below first)
      next => cases first
    · obtain ⟨t', member', deeper⟩ := others later
      exact ⟨t', List.mem_cons_of_mem t member', deeper⟩

/-- The units of a walk over a row in order follow one another. -/
theorem pairwise_unitsBelow (wellFormed : ∀ t ∈ ts, t.WellFormed source)
    (apart : ts.Pairwise fun t t' => t.stop ≤ t'.start) :
    (unitsBelow lang source scopes above ts).Pairwise
      fun p q => p.unit.anchor.stop ≤ q.unit.anchor.start := by
  induction ts using row_induction generalizing scopes above with
  | nil =>
    rw [unitsBelow]
    exact .nil
  | cons t rest below others =>
    rw [List.pairwise_cons] at apart
    have first_formed := wellFormed t List.mem_cons_self
    have rest_formed : ∀ t' ∈ rest, t'.WellFormed source :=
      fun t' member => wellFormed t' (List.mem_cons_of_mem t member)
    rw [unitsBelow, List.pairwise_append]
    refine ⟨?_, others rest_formed apart.2, fun p first q later => ?_⟩
    · split
      next =>
        cases matched : ofNode? lang source t with
        | some u =>
          rw [unitsFrom_of_some matched]
          exact List.pairwise_singleton _ _
        | none =>
          rw [unitsFrom_of_none matched]
          exact below (fun c child => first_formed.child child) first_formed.self.apart
      next => exact .nil
    · -- The first lies inside the first tree, the other inside one that begins after it.
      have walked : p ∈ unitsBelow lang source scopes above [t] := by
        rw [unitsBelow, unitsBelow, List.append_nil]
        exact first
      obtain ⟨t', only, in_first⟩ := exists_mem_nodes walked
      rw [List.mem_singleton] at only
      obtain ⟨t'', among, in_later⟩ := exists_mem_nodes later
      have inside_first := (only ▸ first_formed).inside in_first
      have inside_later := (rest_formed t'' among).inside in_later
      have between := apart.1 t'' among
      rw [only] at inside_first
      omega

end Ranges

section Texts

variable {source : String} {t : SyntaxTree}

theorem byteLength_eq (text : List Char) : Position.byteLength text = String.utf8Len text := by
  have from_any (text : List Char) : ∀ bytes,
      text.foldl (fun bytes c => bytes + c.utf8Size) bytes = bytes + String.utf8Len text := by
    induction text with
    | nil => simp
    | cons c text ih =>
      intro bytes
      rw [List.foldl_cons, ih, String.utf8Len_cons]
      omega
  rw [Position.byteLength, from_any, Nat.zero_add]

theorem before_ofOffset (front back : List Char) :
    (Position.ofOffset (String.ofList (front ++ back)) (String.utf8Len front)).before = front := by
  have cut := String.extract_of_valid [] front back
  rw [List.nil_append, String.utf8Len_nil, Nat.zero_add] at cut
  rw [Position.ofOffset, cut, String.toList_ofList]

/-- The text of a unit begins where a character does, not after the unit. -/
theorem isValid_textStart (starts : String.Pos.Raw.IsValid source ⟨t.start⟩) :
    String.Pos.Raw.IsValid source ⟨textStart source t⟩ ∧ textStart source t ≤ t.start := by
  obtain ⟨front, back, whole, place⟩ := String.Pos.Raw.isValid_iff_exists_append.mp starts
  have chars : source = String.ofList (front.toList ++ back.toList) := by simp [whole]
  have offset : t.start = String.utf8Len front.toList := by
    rw [← String.utf8ByteSize_ofList, String.ofList_toList]
    exact congrArg String.Pos.Raw.byteIdx place
  rw [textStart, chars, offset]
  simp only [Position.lineHead, before_ofOffset]
  split
  next =>
    -- What stands before the line is what is left in front of the blanks.
    let rest := (front.toList.reverse.dropWhile (· ≠ '\n')).reverse
    let head := (front.toList.reverse.takeWhile (· ≠ '\n')).reverse
    have parts : front.toList = rest ++ head := by
      rw [← List.reverse_append, List.takeWhile_append_dropWhile, List.reverse_reverse]
    have bytes : String.utf8Len front.toList - Position.byteLength head = String.utf8Len rest := by
      rw [byteLength_eq, parts, String.utf8Len_append]
      omega
    refine ⟨?_, Nat.sub_le _ _⟩
    have valid := Text.isValid_of_append rest (head ++ back.toList)
    rw [← List.append_assoc, ← parts] at valid
    rw [bytes]
    exact valid
  next => exact ⟨offset ▸ chars ▸ starts, Nat.le_refl _⟩

end Texts

section Chunks

variable {lang : Language} {limits : ChunkLimits} {path source : String} {root : SyntaxTree}

/-- The chunks of a file are those of its large units, in their order. -/
theorem forall₂_chunks (lang : Language) (limits : ChunkLimits) (path source : String)
    (earlier : List (String × String)) (ps : List Placed) :
    List.Forall₂ (fun p c => ∃ n, chunk? lang limits path source p n = some c)
      (ps.filter fun p => IsLarge limits source p)
      ((withOrdinals earlier ps).filterMap fun (p, n) => chunk? lang limits path source p n) := by
  induction ps generalizing earlier with
  | nil => exact .nil
  | cons p ps ih =>
    rw [withOrdinals, List.filterMap_cons]
    dsimp only
    cases cut : chunk? lang limits path source p (earlier.count p.key) with
    | none =>
      rw [List.filter_cons_of_neg (by simpa using chunk?_eq_none_iff.mp cut)]
      exact ih _
    | some c =>
      rw [List.filter_cons_of_pos (by simpa using (isCut_of_chunk? cut).large)]
      exact .cons ⟨_, cut⟩ (ih _)

/-- What the chunks of a file are cut from, each unit with its address. -/
structure KeptUnits (lang : Language) (limits : ChunkLimits) (path source : String)
    (root : SyntaxTree) (kept : List (List Nat × Placed)) (chunks : List Chunk) : Prop where
  /-- Each address occurs once, and the order is that of the source. -/
  ordered : (kept.map (·.1)).Pairwise (· < ·)
  mem_iff : ∀ address p, (address, p) ∈ kept ↔
    OutermostAt lang source root address p ∧ IsLarge limits source p
  chunks : List.Forall₂ (fun spot c => ∃ n, chunk? lang limits path source spot.2 n = some c)
    kept chunks
  apart : kept.Pairwise fun spot later => spot.2.unit.anchor.stop ≤ later.2.unit.anchor.start
  ordered_within : ∀ spot ∈ kept, spot.2.unit.anchor.IsOrdered source
  /-- The text begins where a character does, not behind the node. -/
  text_starts : ∀ spot ∈ kept,
    String.Pos.Raw.IsValid source ⟨textStart source spot.2.unit.anchor⟩ ∧
      textStart source spot.2.unit.anchor ≤ spot.2.unit.anchor.start

/-- All outermost units of a tree with their addresses. -/
theorem exists_spots (lang : Language) (source : String) (root : SyntaxTree) :
    ∃ spots, Spotted spots (units lang source root) (OutermostAt lang source root) := by
  obtain ⟨spots, spotted⟩ := exists_spots_from lang source root.children [] [root.kind] 0
  exact ⟨spots, spotted.from_zero⟩

/-- The chunks of a file are cut from its outermost units that are large enough, each once and in
source order, and the ranges of these units follow one another. -/
theorem chunks_cut_from_outermost (lang : Language) (limits : ChunkLimits) (path : String)
    (wellFormed : root.WellFormed source) :
    ∃ kept, KeptUnits lang limits path source root kept
      (chunksOf lang limits path source root) := by
  obtain ⟨spots, ordered, units_eq, mem_iff⟩ := exists_spots lang source root
  have row_formed : ∀ t ∈ root.children, t.WellFormed source := fun t => wellFormed.child
  have anchored : ∀ spot ∈ spots, spot.2.unit.anchor.IsOrdered source := by
    intro spot member
    have among : spot.2 ∈ units lang source root := units_eq ▸ List.mem_map_of_mem member
    obtain ⟨t, child, below⟩ := exists_mem_nodes among
    exact row_formed t child _ below
  have apart : spots.Pairwise fun spot later =>
      spot.2.unit.anchor.stop ≤ later.2.unit.anchor.start := by
    have all : (units lang source root).Pairwise
        fun p q => p.unit.anchor.stop ≤ q.unit.anchor.start :=
      pairwise_unitsBelow row_formed wellFormed.self.apart
    rw [← units_eq, List.pairwise_map] at all
    exact all
  let large (spot : List Nat × Placed) : Bool := IsLarge limits source spot.2
  have chunks : List.Forall₂ (fun spot c => ∃ n, chunk? lang limits path source spot.2 n = some c)
      (spots.filter large) (chunksOf lang limits path source root) := by
    rw [chunksOf, ← units_eq]
    have cut := forall₂_chunks lang limits path source [] (spots.map (·.2))
    rw [List.filter_map, List.forall₂_map_left_iff] at cut
    exact cut
  refine ⟨spots.filter large, ?_, ?_, chunks, apart.filter _, ?_, ?_⟩
  · exact ordered.sublist (List.filter_sublist.map _)
  · intro address p
    rw [List.mem_filter, mem_iff, decide_eq_true_iff]
  · exact fun spot member => anchored spot (List.mem_of_mem_filter member)
  · intro spot member
    exact isValid_textStart (anchored spot (List.mem_of_mem_filter member)).starts

/-- A class with a method that holds a function, and a declaration of two names. -/
def classSource : String :=
  "class A \x7b\n  m() \x7b return () => 1 \x7d\n\x7d\nconst f = () => 2, g = 3\n"

def classTree : SyntaxTree :=
  .node "program" true none 0 62 [
    .node "class_declaration" true none 0 36 [
      .node "identifier" true (some .name) 6 7 [],
      .node "class_body" true none 8 36 [
        .node "method_definition" true none 12 34 [
          .node "property_identifier" true (some .name) 12 13 [],
          .node "formal_parameters" true (some .parameters) 13 15 [],
          .node "statement_block" true none 16 34 [
            .node "return_statement" true none 18 32 [
              .node "arrow_function" true none 25 32 []]]]]],
    .node "lexical_declaration" true none 37 61 [
      .node "variable_declarator" true none 43 54 [
        .node "identifier" true (some .name) 43 44 [],
        .node "arrow_function" true (some .value) 47 54 []],
      .node "variable_declarator" true none 56 61 [
        .node "identifier" true (some .name) 56 57 [],
        .node "number" true (some .value) 60 61 []]]]

theorem chunks_cut_from_outermost_classSample :
    classTree.WellFormed classSource ∧
    (chunksOf .javascript { minSize := 7 } "x.js" classSource classTree).map (·.name) =
      [some "m", some "f"] ∧
    ∃ kept, KeptUnits .javascript { minSize := 7 } "x.js" classSource classTree kept
      (chunksOf .javascript { minSize := 7 } "x.js" classSource classTree) :=
  ⟨by decide +kernel, by decide +kernel,
    chunks_cut_from_outermost .javascript { minSize := 7 } "x.js" (by decide +kernel)⟩

end Chunks

end CodeUnit

end Lookalike
