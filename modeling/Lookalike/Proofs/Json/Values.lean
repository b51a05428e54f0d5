import Lookalike.Proofs.Json.RoundTrip
import Lookalike.Proofs.SortedMap

/-!
# Values in documents

Naturals, texts, lists and maps are printable and read back as what they were. A single precision
number is printable whatever it is, but it need not read back: what is not finite is written as
null, and the reader rounds twice.
-/

namespace Lookalike.Json

section Numbers

theorem isDigit_of_mem_toDigits {n : Nat} {c : Char} (h : c ∈ Nat.toDigits 10 n) : c.isDigit :=
  Nat.isDigit_of_mem_toDigits (by decide) (by decide) h

/-- No numeral of a positive natural starts with a zero. -/
theorem head?_toDigits {n : Nat} (positive : n ≠ 0) : (Nat.toDigits 10 n).head? ≠ some '0' := by
  induction n using Nat.strongRecOn with
  | ind n ih =>
    rw [Nat.toDigits_eq_if (by decide)]
    split
    next small =>
      have nonzero : ∀ m : Fin 10, m.val ≠ 0 → [m.val.digitChar].head? ≠ some '0' := by decide
      exact nonzero ⟨n, small⟩ positive
    next large =>
      have shorter := ih (n / 10) (by omega) (by omega)
      obtain ⟨c, more, split⟩ := List.exists_cons_of_ne_nil (Nat.toDigits_ne_nil (n := n / 10))
      rw [split] at shorter ⊢
      simpa using shorter

theorem wellWritten_ofNat (n : Nat) : WellWritten (.ofNat n) where
  whole := ⟨Nat.toDigits_ne_nil, fun _ => isDigit_of_mem_toDigits⟩
  leading := by
    by_cases zero : n = 0
    · subst zero
      exact .inl (by decide)
    · exact .inr (head?_toDigits zero)
  fraction := by intro digits absent; cases absent
  exponent := by intro sign digits absent; cases absent

theorem toNat?_ofNat (n : Nat) : (Numeral.ofNat n).toNat? = some n := by
  simp [Numeral.ofNat, Numeral.toNat?, Number.natOf_toDigits]

theorem toNatBelow?_ofNat {bound n k : Nat} :
    toNatBelow? bound (ofNat n) = some k ↔ n < bound ∧ n = k := by
  simp only [toNatBelow?, ofNat, toNat?_ofNat, Option.filter_some, decide_eq_true_eq]
  split
  next below => simp [below]
  next above => simp [above]

theorem isInRange_ofNat {n : Nat} (below : n < Number.longBound) :
    (Numeral.ofNat n).isInRange := by
  simp [Numeral.isInRange, toNat?_ofNat, below]

theorem printable_ofNat (n : Nat) : Printable (ofNat n) := by
  simp only [ofNat, Printable]
  exact wellWritten_ofNat n

/-- The digits that are found for a number are a positive natural, unless none are found. -/
theorem shortest_digits (mantissa : Nat) (exponent : Int) :
    (Number.shortest mantissa exponent).1 ≠ 0 ∨ Number.shortest mantissa exponent = (0, 0) := by
  have grid (c : Number.Cell) (k : Int) {digits : Nat} (h : c.onGrid? k = some digits) :
      digits ≠ 0 := by
    have found := List.find?_some h
    simp only [Bool.and_eq_true, decide_eq_true_eq] at found
    exact found.1
  have search (c : Number.Cell) (n : Nat) (k : Int) {found : Nat × Int}
      (h : c.search n k = some found) : found.1 ≠ 0 := by
    induction n generalizing k with
    | zero => cases h
    | succ n ih =>
      simp only [Number.Cell.search] at h
      split at h
      next digits at_k =>
        cases h
        exact grid c k at_k
      next => exact ih (k - 1) h
  rw [Number.shortest]
  cases result : (Number.Cell.of .single mantissa exponent).search 100 39 with
  | none => exact .inr rfl
  | some found => exact .inl (search _ _ _ result)

theorem isDigit_of_mem_zeros {n : Nat} {c : Char} (h : c ∈ List.replicate n '0') : c.isDigit := by
  rw [(List.mem_replicate.mp h).2]
  decide

/-- A positional numeral without exponent. -/
theorem wellWritten_positional (negative : Bool) {whole fraction : List Char}
    (some_whole : whole ≠ []) (some_fraction : fraction ≠ []) (all_whole : ∀ c ∈ whole, c.isDigit)
    (all_fraction : ∀ c ∈ fraction, c.isDigit)
    (leading : whole.length = 1 ∨ whole.head? ≠ some '0') :
    WellWritten ⟨negative, whole, some fraction, none⟩ where
  whole := ⟨some_whole, all_whole⟩
  leading := leading
  fraction := by
    intro digits same
    cases same
    exact ⟨some_fraction, all_fraction⟩
  exponent := by intro sign digits absent; cases absent

/-- A numeral with one digit before the point and an exponent. -/
theorem wellWritten_scientific (negative : Bool) {d : Char} {fraction : Option (List Char)}
    (digit : d.isDigit) (e : Int)
    (all : ∀ digits, fraction = some digits → digits ≠ [] ∧ ∀ c ∈ digits, c.isDigit) :
    WellWritten ⟨negative, [d], fraction,
      some (if e < 0 then some '-' else none, Nat.toDigits 10 e.natAbs)⟩ where
  whole := ⟨by simp, by simpa using digit⟩
  leading := .inl rfl
  fraction := all
  exponent := by
    intro sign digits same
    cases same
    refine ⟨?_, Nat.toDigits_ne_nil, fun _ => isDigit_of_mem_toDigits⟩
    split
    · exact .inr rfl
    · exact .inl rfl

/-- The digits of a number, with the point behind some of them and before others. -/
theorem wellWritten_pointed (negative : Bool) {d : Char} {more : List Char} {place : Nat}
    (all : ∀ c ∈ d :: more, c.isDigit) (leading : (d :: more).head? ≠ some '0')
    (shorter : place < more.length) :
    WellWritten ⟨negative, d :: more.take place, some (more.drop place), none⟩ := by
  refine wellWritten_positional negative (by simp) (by simpa using shorter) ?_ ?_
    (.inr (by simpa using leading))
  · intro c hc
    rcases List.mem_cons.mp hc with rfl | hc
    · exact all c List.mem_cons_self
    · exact all c (List.mem_cons_of_mem d (List.mem_of_mem_take hc))
  · intro c hc
    exact all c (List.mem_cons_of_mem d (List.mem_of_mem_drop hc))

/-- Every layout of a number has digits where the grammar wants them, and no leading zero. -/
theorem wellWritten_floatNumeral (layout : FloatLayout) (negative : Bool) {digits : Nat} {k : Int}
    (positive : digits ≠ 0 ∨ digits = 0 ∧ k = 0) :
    WellWritten (floatNumeral layout negative digits k) := by
  have all : ∀ c ∈ Nat.toDigits 10 digits, c.isDigit := fun _ => isDigit_of_mem_toDigits
  have nonempty : Nat.toDigits 10 digits ≠ [] := Nat.toDigits_ne_nil
  have leading : digits ≠ 0 → (Nat.toDigits 10 digits).head? ≠ some '0' := head?_toDigits
  have zero : digits = 0 → Nat.toDigits 10 digits = ['0'] := fun h => h ▸ Nat.toDigits_zero 10
  rw [floatNumeral]
  generalize Nat.toDigits 10 digits = ds at *
  obtain ⟨d, more, rfl⟩ := List.exists_cons_of_ne_nil nonempty
  simp only
  split
  next whole =>
    refine wellWritten_positional negative (by simp) (by simp) ?_ (by simp) ?_
    · intro c hc
      rcases List.mem_append.mp hc with hc | hc
      · exact all c hc
      · exact isDigit_of_mem_zeros hc
    · rcases positive with positive | ⟨none_left, rfl⟩
      · exact .inr (by simpa using leading positive)
      · exact .inl (by simp [zero none_left])
  next outside =>
    split
    next inside =>
      have negative_exponent : k < 0 := by
        apply Int.not_le.mp
        intro nonneg
        exact outside ⟨nonneg, inside.2⟩
      have positive : digits ≠ 0 := by omega
      have length : ((d :: more).length : Int) + k < (d :: more).length := by omega
      obtain ⟨place, at_place⟩ : ∃ n : Nat, ((d :: more).length : Int) + k = (n + 1 : Nat) :=
        ⟨(((d :: more).length : Int) + k - 1).toNat, by omega⟩
      rw [at_place] at length ⊢
      have shorter : place < more.length := by simp only [List.length_cons] at length; omega
      rw [Int.toNat_natCast, List.take_succ_cons, List.drop_succ_cons]
      exact wellWritten_pointed negative all (leading positive) shorter
    next =>
      split
      next below =>
        refine wellWritten_positional negative (by simp) (by simp) (by simp) ?_
          (.inl rfl)
        intro c hc
        rcases List.mem_append.mp hc with hc | hc
        · exact isDigit_of_mem_zeros hc
        · exact all c hc
      next =>
        cases more with
        | nil =>
          exact wellWritten_scientific negative (all d List.mem_cons_self) _ (by simp)
        | cons d' more =>
          refine wellWritten_scientific negative (all d List.mem_cons_self) _ ?_
          intro digits same
          cases same
          exact ⟨by simp, fun c hc => all c (List.mem_cons_of_mem d (by simpa using hc))⟩

/-- A single precision number is always printable; what is not finite is null. -/
theorem printable_ofSingle (x : Float32) : Printable (ofSingle x) := by
  rw [ofSingle]
  split
  next _ negative _ _ =>
    simp only [Printable]
    exact wellWritten_positional negative (by simp) (by simp) (by simp) (by simp) (.inl rfl)
  next _ negative mantissa exponent _ _ =>
    have found := shortest_digits mantissa exponent
    simp only [Printable]
    refine wellWritten_floatNumeral documentLayout negative ?_
    rcases found with found | found
    · exact .inl found
    · exact .inr (by simp [found])
  next => simp only [Printable]

end Numbers

section Containers

variable {α β : Type}

/-- Reading a list succeeds with what reading each item gives. -/
theorem mapM_eq_some_iff {f : α → Option β} {xs : List α} {ys : List β} :
    xs.mapM f = some ys ↔ xs.map f = ys.map some := by
  induction xs generalizing ys with
  | nil => cases ys <;> simp
  | cons x xs ih =>
    simp only [List.mapM_cons, Option.bind_eq_bind, Option.bind_eq_some_iff, ih, Option.pure_def,
      Option.some.injEq]
    constructor
    · rintro ⟨y, first, zs, others, rfl⟩
      simp [first, others]
    · intro same
      cases ys with
      | nil => simp at same
      | cons y zs =>
        simp only [List.map_cons, List.cons.injEq] at same
        exact ⟨y, same.1, zs, same.2, rfl⟩

theorem isSome_mapM {f : α → Option β} {xs : List α} :
    (xs.mapM f).isSome ↔ ∀ x ∈ xs, (f x).isSome := by
  induction xs with
  | nil => simp
  | cons x xs ih =>
    simp only [List.mem_cons, forall_eq_or_imp, ← ih]
    cases first : f x with
    | none => simp [first]
    | some y => cases others : xs.mapM f <;> simp [first, others]

theorem printable_ofText (text : String) : Printable (ofText text) := rfl

theorem toText?_ofText (text : String) : toText? (ofText text) = some text := rfl

theorem printable_ofList {write : α → Json} {items : List α}
    (each : ∀ x ∈ items, Printable (write x)) : Printable (ofList write items) := by
  simp only [ofList, Printable, allPrintable_iff, List.mem_map]
  rintro v ⟨x, hx, rfl⟩
  exact each x hx

theorem printable_ofOption {write : α → Json} {value : Option α}
    (each : ∀ x, Printable (write x)) : Printable (ofOption write value) := by
  cases value with
  | none => simp only [ofOption, Printable]
  | some x => exact each x

theorem printable_ofFields {fields : List (String × Json)}
    (each : ∀ f ∈ fields, Printable f.2) : Printable (ofFields fields) := by
  simp only [ofFields, Printable, allMembersPrintable_iff, List.mem_map]
  rintro m ⟨f, hf, rfl⟩
  exact ⟨rfl, each f hf⟩

theorem printable_ofMap {write : α → Json} {m : SortedMap α} (each : ∀ x, Printable (write x)) :
    Printable (ofMap write m) := by
  refine printable_ofFields fun f hf => ?_
  obtain ⟨e, _, rfl⟩ := List.mem_map.mp hf
  exact each e.2

theorem toList?_ofList {write : α → Json} {read : Json → Option β} {xs : List α} {ys : List β} :
    toList? read (ofList write xs) = some ys ↔ xs.map (fun x => read (write x)) = ys.map some := by
  simp only [toList?, ofList, List.mapM_map, mapM_eq_some_iff, Function.comp_def]

theorem toTexts?_ofTexts (texts : List String) :
    toList? toText? (ofList ofText texts) = some texts :=
  toList?_ofList.mpr (by simp [toText?, ofText])

/-- What reading keeps of each item it keeps of the list. -/
theorem map_eq_of_map_eq {γ : Type} {f : α → Option β} {xs : List α} {ys : List β} {k : α → γ}
    {l : β → γ} (keeps : ∀ x y, f x = some y → l y = k x) (same : xs.map f = ys.map some) :
    ys.map l = xs.map k := by
  induction xs generalizing ys with
  | nil =>
    cases ys with
    | nil => rfl
    | cons y ys => simp at same
  | cons x xs ih =>
    cases ys with
    | nil => simp at same
    | cons y ys =>
      simp only [List.map_cons, List.cons.injEq] at same ⊢
      exact ⟨keeps x y same.1, ih same.2⟩

/-- A map is read as the map of what reading each value gives, under the same keys. -/
theorem toMap?_ofMap {write : α → Json} {read : Json → Option β} {m : SortedMap α}
    {n : SortedMap β} :
    toMap? read (ofMap write m) = some n ↔
      m.entries.map (fun e => (read (write e.2)).map (e.1, ·)) = n.entries.map some := by
  have entry (e : String × α) : ((read (write e.2)).bind fun v => some (e.1, v)) =
      (read (write e.2)).map (e.1, ·) := by
    cases read (write e.2) <;> rfl
  simp only [toMap?, ofMap, ofFields, List.map_map, List.mapM_map, Function.comp_def,
    Option.bind_eq_bind, Option.bind_some, Option.pure_def, entry, Option.bind_eq_some_iff,
    mapM_eq_some_iff, Option.some.injEq]
  constructor
  · rintro ⟨entries, same, rfl⟩
    have keys : entries.map (·.1) = m.entries.map (·.1) := by
      refine map_eq_of_map_eq (fun e d h => ?_) same
      obtain ⟨v, _, rfl⟩ := Option.map_eq_some_iff.mp h
      rfl
    have ascending : Ascending entries := by
      have sorted : (m.entries.map (·.1)).Pairwise (· < ·) := List.pairwise_map.mpr m.ascending
      rw [← keys] at sorted
      exact List.pairwise_map.mp sorted
    rw [SortedMap.entries_ofList ascending]
    exact same
  · intro same
    exact ⟨n.entries, same, SortedMap.ofList_entries n⟩

/-- Under each key of a map that is read stands what reading its value gives. -/
theorem get?_of_toMap?_ofMap {write : α → Json} {read : Json → Option β} {m : SortedMap α}
    {n : SortedMap β} (h : toMap? read (ofMap write m) = some n) :
    n.keys = m.keys ∧ ∀ key v, n.get? key = some v → ∃ u, m.get? key = some u ∧
      read (write u) = some v := by
  have same := toMap?_ofMap.mp h
  constructor
  · refine map_eq_of_map_eq (fun e d h => ?_) same
    obtain ⟨v, _, rfl⟩ := Option.map_eq_some_iff.mp h
    rfl
  · intro key v found
    have member := List.mem_map_of_mem (f := some) ((n.mem_entries_iff key v).mpr found)
    rw [← same, List.mem_map] at member
    obtain ⟨⟨k, u⟩, at_key, result⟩ := member
    obtain ⟨v', reads, same⟩ := Option.map_eq_some_iff.mp result
    cases same
    exact ⟨u, (m.mem_entries_iff _ u).mp at_key, reads⟩

/-- A map is read if and only if each of its values is. -/
theorem isSome_toMap?_ofMap {write : α → Json} {read : Json → Option β} {m : SortedMap α} :
    (toMap? read (ofMap write m)).isSome ↔
      ∀ key u, m.get? key = some u → (read (write u)).isSome := by
  have read_all : (toMap? read (ofMap write m)).isSome ↔
      ∀ e ∈ m.entries, (read (write e.2)).isSome := by
    simp only [toMap?, ofMap, ofFields, Option.bind_eq_bind, Option.pure_def, Option.isSome_bind,
      Option.isSome_some,
      Option.any_true, isSome_mapM, List.forall_mem_map, Option.any_some]
  rw [read_all]
  constructor
  · intro each key u found
    exact each (key, u) ((m.mem_entries_iff key u).mpr found)
  · intro each e he
    exact each e.1 e.2 ((m.mem_entries_iff e.1 e.2).mp he)

end Containers

section Records

/-- The keys that a writer gave are all read. -/
theorem mapM_keyed (fields : List (String × Json)) :
    (fields.map fun (name, value) => (some name, value)).mapM
      (fun (key, value) => key.map fun key => (key, value)) = some fields := by
  rw [List.mapM_map, mapM_eq_some_iff]
  simp

/-- The fields of an object that a reader asks for are found when no key among them is repeated. -/
theorem ofMembers?_ofFields {names : List String} {fields : List (String × Json)}
    (distinct : ((fields.filter (·.1 ∈ names)).map (·.1)).Nodup) :
    Record.ofMembers? names (fields.map fun (name, value) => (some name, value)) =
      some ⟨false, fields.filter (·.1 ∈ names)⟩ := by
  simp only [Record.ofMembers?, mapM_keyed, Option.bind_eq_bind, Option.bind_some]
  simp [guard, distinct]

/-- A field that may be null is read as what it was written from. -/
theorem nullable?_ofOption {α β : Type} {r : Record} {name : String} {write : α → Json}
    {read : Json → Option β} {value : Option α} (field : r.get? name = some (ofOption write value))
    (never_null : ∀ x, write x ≠ null) :
    r.nullable? name read = value.elim (some none) fun x => (read (write x)).map some := by
  cases value with
  | none => simp only [Record.nullable?, field, ofOption, Option.elim_none]
  | some x =>
    simp only [Record.nullable?, field, ofOption, Option.elim_some]
    split
    next absent => cases absent
    next is_null => exact absurd (Option.some.inj is_null) (never_null x)
    next same =>
      cases same
      rfl

theorem nullable?_natural {r : Record} {name : String} {value found : Option Nat} {bound : Nat}
    (field : r.get? name = some (ofOption ofNat value)) :
    r.nullable? name (toNatBelow? bound) = some found ↔
      (∀ n, value = some n → n < bound) ∧ value = found := by
  rw [nullable?_ofOption field (fun n => by simp [ofNat])]
  cases value with
  | none => simp
  | some n =>
    simp only [Option.elim_some, Option.map_eq_some_iff, toNatBelow?_ofNat, Option.some.injEq,
      forall_eq']
    constructor
    · rintro ⟨k, ⟨below, rfl⟩, same⟩
      exact ⟨below, same⟩
    · rintro ⟨below, same⟩
      exact ⟨n, ⟨below, rfl⟩, same⟩

end Records

end Lookalike.Json
