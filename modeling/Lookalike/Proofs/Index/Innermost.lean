import Lookalike.Proofs.Index.Documents
import Mathlib.Data.List.Induction

/-!
# The innermost chunk

For a line the innermost chunk is shown: among the chunks of the file whose spans have the line, the
first of those with the fewest lines. Lines are counted in 64 bits, and there is one span with more
lines than that, from line 0 to the greatest line number. It has every line, so where a chunk of the
file has that span, no line of the file can be looked up.
-/

namespace Lookalike

namespace Span

variable {s : Span} {line : UInt64}

/-- The span has the line, by the numbers of the lines. -/
def Covers (s : Span) (line : UInt64) : Prop :=
  s.startLine.toNat ≤ line.toNat ∧ line.toNat ≤ s.endLine.toNat

/-- The number of lines, as an integer. -/
def extent (s : Span) : Int := s.endLine.toNat - s.startLine.toNat + 1

/-- Neither the difference of the lines nor one more leaves the 64-bit numbers. -/
structure Countable (s : Span) : Prop where
  ordered : s.startLine.toNat ≤ s.endLine.toNat
  fits : s.endLine.toNat - s.startLine.toNat + 1 < UInt64.size

/-- The span of all line numbers. -/
def Boundless (s : Span) : Prop := s.startLine = 0 ∧ s.endLine = -1

instance (s : Span) : Decidable s.Boundless := inferInstanceAs (Decidable (_ ∧ _))

theorem containsLine_iff : s.containsLine line ↔ s.Covers line := by
  simp [containsLine, Covers, UInt64.le_iff_toNat_le]

theorem boundless_iff :
    s.Boundless ↔ s.startLine.toNat = 0 ∧ s.endLine.toNat + 1 = UInt64.size := by
  rw [Boundless, ← UInt64.toNat_inj, ← UInt64.toNat_inj]
  have last : (-1 : UInt64).toNat + 1 = UInt64.size := by decide
  have first : (0 : UInt64).toNat = 0 := rfl
  omega

theorem Covers.countable_iff (covers : s.Covers line) : s.Countable ↔ ¬s.Boundless := by
  rw [boundless_iff]
  have last := s.endLine.toNat_lt_size
  obtain ⟨before, behind⟩ := covers
  constructor
  · rintro ⟨_, fits⟩
    omega
  · intro bounded
    exact ⟨by omega, by omega⟩

theorem isSome_lineCount?_iff : s.lineCount?.isSome ↔ s.Countable := by
  have last := s.endLine.toNat_lt_size
  have size : UInt64.size = 18446744073709551616 := rfl
  rw [lineCount?]
  split
  next behind =>
    have behind := UInt64.lt_iff_toNat_lt.mp behind
    exact ⟨nofun, fun countable => absurd countable.ordered (Nat.not_le.mpr behind)⟩
  next before =>
    have ordered := UInt64.le_iff_toNat_le.mp (UInt64.not_lt.mp before)
    have further := UInt64.toNat_sub_of_le _ _ (UInt64.not_lt.mp before)
    dsimp only
    split
    next wrapped =>
      rw [UInt64.lt_iff_toNat_lt, UInt64.toNat_add, further] at wrapped
      refine ⟨nofun, fun countable => ?_⟩
      have fits := countable.fits
      rw [UInt64.toNat_one, Nat.mod_eq_of_lt fits] at wrapped
      omega
    next kept =>
      rw [UInt64.lt_iff_toNat_lt, UInt64.toNat_add, further, UInt64.toNat_one] at kept
      refine ⟨fun _ => ⟨ordered, ?_⟩, fun _ => rfl⟩
      omega

theorem Countable.toNat_lineCount (countable : s.Countable) :
    ((s.lineCount?.getD 0).toNat : Int) = s.extent := by
  have counted := isSome_lineCount?_iff.mpr countable
  obtain ⟨ordered, fits⟩ := countable
  rw [lineCount?] at counted ⊢
  split at counted
  next => cases counted
  next before =>
    dsimp only at counted
    split at counted
    next => cases counted
    next kept =>
      have further := UInt64.toNat_sub_of_le _ _ (UInt64.not_lt.mp before)
      rw [if_neg before, if_neg kept, Option.getD_some, UInt64.toNat_add, further,
        UInt64.toNat_one, Nat.mod_eq_of_lt fits, extent]
      omega

end Span

/-- Nothing in the list weighs less, and all that stands before weighs more. -/
def FirstLeast {α : Type u} (weight : α → Int) (items : List α) (x : α) : Prop :=
  ∃ front back, items = front ++ x :: back ∧ (∀ y ∈ front, weight x < weight y) ∧
    ∀ y ∈ back, weight x ≤ weight y

namespace FirstLeast

variable {α : Type u} {weight weight' : α → Int} {items : List α} {x : α}

theorem mem (h : FirstLeast weight items x) : x ∈ items := by
  obtain ⟨front, back, rfl, _⟩ := h
  simp

theorem least (h : FirstLeast weight items x) {y : α} (member : y ∈ items) :
    weight x ≤ weight y := by
  obtain ⟨front, back, rfl, before, behind⟩ := h
  rcases List.mem_append.mp member with inFront | rest
  · exact Int.le_of_lt (before y inFront)
  · rcases List.mem_cons.mp rest with rfl | inBack
    · exact Int.le_refl _
    · exact behind y inBack

/-- Weights that compare alike have the same first least item. -/
theorem congr (alike : ∀ y ∈ items, ∀ z ∈ items, weight y ≤ weight z ↔ weight' y ≤ weight' z)
    (h : FirstLeast weight items x) : FirstLeast weight' items x := by
  have member := h.mem
  obtain ⟨front, back, rfl, before, behind⟩ := h
  refine ⟨front, back, rfl, fun y inFront => ?_, fun y inBack => ?_⟩
  · have heavier := before y inFront
    have compared := alike y (by simp [inFront]) x member
    omega
  · exact (alike x member y (by simp [inBack])).mp (behind y inBack)

end FirstLeast

namespace Catalogue

section Least

variable {α : Type u} {key : α → UInt64}

/-- The item that was best so far stays in front of the rest. -/
theorem firstLeast_foldl (first : α) (rest : List α) :
    FirstLeast (fun y => ((key y).toNat : Int)) (first :: rest)
      (rest.foldl (fun best y => if key y < key best then y else best) first) := by
  -- Induction from the end: the last item replaces the best one before it only if it is less.
  induction rest using List.reverseRecOn with
  | nil => exact ⟨[], [], rfl, by simp, by simp⟩
  | append_singleton rest last ih =>
    rw [List.foldl_append, List.foldl_cons, List.foldl_nil]
    split
    next lighter =>
      refine ⟨first :: rest, [], rfl, fun y member => ?_, by simp⟩
      have least := ih.least member
      have lighter := UInt64.lt_iff_toNat_lt.mp lighter
      simp only at least ⊢
      omega
    next heavier =>
      obtain ⟨front, back, whole, before, behind⟩ := ih
      refine ⟨front, back ++ [last], by rw [← List.cons_append, whole]; simp, before,
        fun y member => ?_⟩
      rcases List.mem_append.mp member with inBack | isLast
      · exact behind y inBack
      · rw [List.mem_singleton.mp isLast]
        have heavier := UInt64.le_iff_toNat_le.mp (UInt64.not_lt.mp heavier)
        simp only
        omega

theorem firstLeast_of_firstLeast? {items : List α} {x : α}
    (found : firstLeast? key items = some x) :
    FirstLeast (fun y => ((key y).toNat : Int)) items x := by
  cases items with
  | nil => cases found
  | cons first rest =>
    cases found
    exact firstLeast_foldl first rest

theorem isSome_firstLeast? {items : List α} :
    (firstLeast? key items).isSome ↔ ∃ x, x ∈ items := by
  cases items with
  | nil => simp [firstLeast?]
  | cons first rest => simp [firstLeast?]

end Least

section Line

variable {c : Catalogue} {filePath : String} {line : UInt64} {x : Chunk}

theorem mem_covering :
    x ∈ c.covering filePath line ↔ x ∈ c.chunks ∧ x.filePath = filePath ∧ x.span.Covers line := by
  simp [covering, Span.containsLine_iff]

theorem countable_iff_of_mem (member : x ∈ c.covering filePath line) :
    x.span.Countable ↔ ¬x.span.Boundless :=
  (mem_covering.mp member).2.2.countable_iff

/-- The line is looked up: a chunk is found if there is one with it, and that is the first with the
fewest lines. -/
structure ShowsInnermost (c : Catalogue) (filePath : String) (line : UInt64)
    (found : Option Chunk) : Prop where
  found_iff : found.isSome ↔ ∃ x ∈ c.chunks, x.filePath = filePath ∧ x.span.Covers line
  innermost : ∀ x, found = some x → FirstLeast (·.span.extent) (c.covering filePath line) x

/-- The first with the least count has the fewest lines, if all lines could be counted. -/
theorem showsInnermost_firstLeast?
    (counted : ∀ y ∈ c.covering filePath line, y.span.Countable) :
    c.ShowsInnermost filePath line
      (firstLeast? (·.span.lineCount?.getD 0) (c.covering filePath line)) where
  found_iff := isSome_firstLeast?.trans (exists_congr fun _ => mem_covering)
  innermost := by
    intro x found
    refine (firstLeast_of_firstLeast? found).congr fun y inList z inList' => ?_
    rw [(counted y inList).toNat_lineCount, (counted z inList').toNat_lineCount]

/-- The line of a file is looked up, and nothing that is counted on the way leaves the 64 bits, if
and only if no chunk of the file that has the line has all lines; where one has all lines, the
program stops. The end of a span that has a line never stands before its start. -/
theorem innermost_shown_iff (c : Catalogue) (filePath : String) (line : UInt64) :
    ((∃ found, c.atLine? filePath line = .ok found) ↔
      ∀ x ∈ c.covering filePath line, ¬x.span.Boundless) ∧
    (∀ found, c.atLine? filePath line = .ok found → c.ShowsInnermost filePath line found ∧
      ∀ x ∈ c.covering filePath line, x.span.Countable) ∧
    ((∃ x ∈ c.covering filePath line, x.span.Boundless) →
      c.atLine? filePath line = .error .panicked) ∧
    ∀ x ∈ c.covering filePath line, x.span.startLine.toNat ≤ x.span.endLine.toNat := by
  have counted_iff : (c.covering filePath line).all (·.span.lineCount?.isSome) ↔
      ∀ x ∈ c.covering filePath line, x.span.Countable := by
    simp only [List.all_eq_true, Span.isSome_lineCount?_iff]
  have bounded_iff : (∀ x ∈ c.covering filePath line, x.span.Countable) ↔
      ∀ x ∈ c.covering filePath line, ¬x.span.Boundless :=
    forall₂_congr fun x member => countable_iff_of_mem member
  have ordered (x : Chunk) (member : x ∈ c.covering filePath line) :
      x.span.startLine.toNat ≤ x.span.endLine.toNat :=
    have ⟨before, behind⟩ := (mem_covering.mp member).2.2
    Nat.le_trans before behind
  rw [atLine?]
  split
  next all =>
    have counted := counted_iff.mp all
    refine ⟨iff_of_true ⟨_, rfl⟩ (bounded_iff.mp counted), ?_, ?_, ordered⟩
    · rintro _ ⟨⟩
      exact ⟨showsInnermost_firstLeast? counted, counted⟩
    · rintro ⟨x, member, boundless⟩
      exact absurd boundless (bounded_iff.mp counted x member)
  next some_not =>
    have not_bounded := mt (fun bounded => counted_iff.mpr (bounded_iff.mpr bounded)) some_not
    exact ⟨iff_of_false nofun not_bounded, nofun, fun _ => rfl, ordered⟩

end Line

section Sample

/-- A chunk of some lines. -/
def chunkOfLines (id : String) (first last : UInt64) : Chunk :=
  { id, kind := .function, name := none, filePath := "a.ts", language := .typescript, scope := ""
    span := ⟨first, 1, last, 1⟩, contentHash := "", text := "", facts := {} }

/-- A chunk of all lines and one of five. -/
def boundlessSample : Catalogue :=
  (empty.set (chunkOfLines "a.ts#1" 0 (-1))).set (chunkOfLines "a.ts#2" 1 5)

/-- The document of the two is accepted, and then the program stops at a line that the chunk of five
lines has. -/
theorem boundlessSample_hides :
    ∃ c, readCatalogue "" (documentBytes boundlessSample.toJson) = .ok c ∧
      chunkOfLines "a.ts#2" 1 5 ∈ c.covering "a.ts" 3 ∧
      c.atLine? "a.ts" 3 = .error .panicked := by
  have well : WellFormed boundlessSample := wellFormed_set (wellFormed_set wellFormed_empty _) _
  obtain ⟨c, read, _, alike⟩ := readCatalogue_document well ""
  have covered : chunkOfLines "a.ts#2" 1 5 ∈ boundlessSample.covering "a.ts" 3 ∧
      ∃ x ∈ boundlessSample.covering "a.ts" 3, x.span.Boundless := by
    decide +kernel
  rw [covering, ← alike.chunks] at covered
  exact ⟨c, read, covered.1, (innermost_shown_iff c "a.ts" 3).2.2.1 covered.2⟩

end Sample

end Catalogue

end Lookalike
