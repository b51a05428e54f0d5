import Lookalike.Code.Chunking

/-!
# What a unit is cut into

A unit gives a chunk if its text in normal form is large enough, and the chunk has what the unit
has: its name, its scope, its text and what is noticed about it. Everything that is said of chunks
goes back to this.
-/

namespace Lookalike.CodeUnit

variable {lang : Language} {limits : ChunkLimits} {path source : String} {p : Placed} {n : Nat}

/-- The normal text of the unit has as many characters beside blanks as a chunk needs. -/
def IsLarge (limits : ChunkLimits) (source : String) (p : Placed) : Prop :=
  limits.minSize ≤ Text.inkLength (normalText source limits.maxChars p.unit).toList

instance (limits : ChunkLimits) (source : String) (p : Placed) :
    Decidable (IsLarge limits source p) :=
  inferInstanceAs (Decidable (_ ≤ _))

theorem chunk?_eq_none_iff :
    chunk? lang limits path source p n = none ↔ ¬ IsLarge limits source p := by
  rw [chunk?, IsLarge, Nat.not_le]
  split
  next small => simp [small]
  next large => simp [large]

/-- What a chunk has from the unit that it is cut from. -/
structure IsCut (lang : Language) (limits : ChunkLimits) (path source : String) (p : Placed)
    (n : Nat) (c : Chunk) : Prop where
  large : IsLarge limits source p
  id : c.id = Chunk.idOf path p.scope p.unit.label (UInt64.ofNat n)
  name : c.name = p.unit.name
  path : c.filePath = path
  scope : c.scope = p.scope
  text : c.text = normalText source limits.maxChars p.unit
  content : c.contentHash = Blake3.hexOfText c.text
  facts : c.facts = facts lang source p

theorem isCut_of_chunk? {c : Chunk}
    (cut : chunk? lang limits path source p n = some c) :
    IsCut lang limits path source p n c := by
  rw [chunk?] at cut
  split at cut
  next => cases cut
  next large =>
    cases cut
    exact ⟨Nat.not_lt.mp large, rfl, rfl, rfl, rfl, rfl, rfl, rfl⟩

theorem map_fst_withOrdinals (earlier : List (String × String)) (ps : List Placed) :
    (withOrdinals earlier ps).map (·.1) = ps := by
  induction ps generalizing earlier with
  | nil => rfl
  | cons p ps ih => rw [withOrdinals, List.map_cons, ih]

end Lookalike.CodeUnit
