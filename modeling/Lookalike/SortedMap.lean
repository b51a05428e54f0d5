/-!
# Sorted maps

Finite maps from texts to values, as lists of entries whose keys ascend. Texts are compared by code
point, which is the order of their UTF-8 forms. A map has one representation, so equal maps are
equal lists.
-/

namespace Lookalike

/-- The keys of the entries ascend strictly. -/
def Ascending {α : Type u} (entries : List (String × α)) : Prop :=
  entries.Pairwise fun a b => a.1 < b.1

structure SortedMap (α : Type u) where
  entries : List (String × α)
  ascending : Ascending entries
  deriving DecidableEq

namespace SortedMap

variable {α : Type u}

instance [Repr α] : Repr (SortedMap α) := ⟨fun m p => reprPrec m.entries p⟩

def empty : SortedMap α := ⟨[], .nil⟩

instance : EmptyCollection (SortedMap α) := ⟨empty⟩
instance : Inhabited (SortedMap α) := ⟨empty⟩

/-- Puts an entry in its place, instead of the one that has its key. -/
def put (key : String) (value : α) : List (String × α) → List (String × α)
  | [] => [(key, value)]
  | (k, v) :: rest =>
    if key < k then (key, value) :: (k, v) :: rest
    else if key = k then (key, value) :: rest
    else (k, v) :: put key value rest

theorem mem_put {key : String} {value : α} {entries : List (String × α)} {e : String × α}
    (h : e ∈ put key value entries) : e = (key, value) ∨ e ∈ entries := by
  induction entries with
  | nil => simpa [put] using h
  | cons first rest ih =>
    obtain ⟨k, v⟩ := first
    simp only [put] at h
    split at h
    · simpa using h
    · split at h
      · simp only [List.mem_cons] at h ⊢
        exact h.imp id .inr
      · simp only [List.mem_cons] at h ⊢
        rcases h with h | h
        · exact .inr (.inl h)
        · exact (ih h).imp id .inr

theorem ascending_put (key : String) (value : α) {entries : List (String × α)}
    (h : Ascending entries) : Ascending (put key value entries) := by
  induction entries with
  | nil => simp [put, Ascending]
  | cons first rest ih =>
    obtain ⟨k, v⟩ := first
    have ⟨above, rest_ascending⟩ := List.pairwise_cons.mp h
    simp only [put]
    split
    next less =>
      refine List.pairwise_cons.mpr ⟨fun e he => ?_, h⟩
      rcases List.mem_cons.mp he with rfl | he
      · exact less
      · exact String.lt_trans less (above e he)
    next not_less =>
      split
      next same => exact List.pairwise_cons.mpr ⟨fun e he => same ▸ above e he, rest_ascending⟩
      next different =>
        refine List.pairwise_cons.mpr ⟨fun e he => ?_, ih rest_ascending⟩
        rcases mem_put he with rfl | he
        · have le := String.not_lt.mp not_less
          refine String.not_le.mp fun ge => different ?_
          exact String.le_antisymm ge le
        · exact above e he

def insert (m : SortedMap α) (key : String) (value : α) : SortedMap α :=
  ⟨put key value m.entries, ascending_put key value m.ascending⟩

/-- Keeps the entries that satisfy a test. -/
def filter (m : SortedMap α) (keep : String → α → Bool) : SortedMap α :=
  ⟨m.entries.filter fun e => keep e.1 e.2, m.ascending.filter _⟩

def erase (m : SortedMap α) (key : String) : SortedMap α := m.filter fun k _ => k ≠ key

def get? (m : SortedMap α) (key : String) : Option α :=
  (m.entries.find? (·.1 = key)).map (·.2)

def contains (m : SortedMap α) (key : String) : Bool := m.entries.any (·.1 = key)

def keys (m : SortedMap α) : List String := m.entries.map (·.1)

def size (m : SortedMap α) : Nat := m.entries.length

def isEmpty (m : SortedMap α) : Bool := m.entries.isEmpty

/-- The map in which later entries of a list win over earlier ones. -/
def ofList (entries : List (String × α)) : SortedMap α :=
  entries.foldl (fun m e => m.insert e.1 e.2) ∅

end SortedMap

end Lookalike
