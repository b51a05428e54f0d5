import Lookalike.Proofs.Index.Parallel
import Lookalike.Proofs.Index.Planning
import Lookalike.Proofs.Index.Reading
import Mathlib.Data.List.Basic

/-!
# States that are alike

The catalogue of an index that was read holds the chunks of the one that was written in their order,
though its search tree may have grown otherwise. States that differ in nothing else are alike. No
operation tells them apart: whatever a run or a query makes of one of them, it makes something alike
of the other.
-/

namespace Lookalike

namespace Catalogue.Alike

variable {c d : Catalogue}

theorem refl (c : Catalogue) : Alike c c := ⟨rfl, fun _ => rfl⟩

theorem contains (h : Alike c d) (id : String) : d.contains id = c.contains id := by
  rw [contains_eq_isSome_get?, contains_eq_isSome_get?, h.found]

theorem set (h : Alike c d) (x : Chunk) : Alike (c.set x) (d.set x) where
  ids := by
    show (d.put x.id x).ids = (c.put x.id x).ids
    rw [ids_put, ids_put, h.contains, h.ids]
  found := fun id => by rw [get?_set, get?_set, h.found]

theorem remove (h : Alike c d) (gone : String) : Alike (c.remove gone) (d.remove gone) where
  ids := by
    have shape (e : Catalogue) :
        (e.remove gone).ids = if e.contains gone then e.ids.filter (· ≠ gone) else e.ids := by
      rw [Catalogue.remove, Catalogue.contains]
      split
      next => simp [Catalogue.ids]
      next => rfl
    rw [shape, shape, h.contains, h.ids]
  found := fun id => by rw [get?_remove, get?_remove, h.found]

theorem removeFile (h : Alike c d) (path : String) :
    Alike (c.removeFile path).2 (d.removeFile path).2 ∧
      (d.removeFile path).1 = (c.removeFile path).1 := by
  have gone : (d.removeFile path).1 = (c.removeFile path).1 := by
    simp only [Catalogue.removeFile, ofFile, h.chunks]
  have found (id : String) : (d.removeFile path).2.get? id = (c.removeFile path).2.get? id := by
    rw [get?_removeFile_eq_ite, get?_removeFile_eq_ite, gone, h.found]
  refine ⟨⟨?_, found⟩, gone⟩
  rw [ids_removeFile, ids_removeFile, h.ids]
  simp only [found]

theorem nearest (h : Alike c d) (table : VectorTable) (vector : Embedding) (top : Nat)
    (threshold : Float32) (exclude : Option String) :
    Query.nearest d table vector top threshold exclude =
      Query.nearest c table vector top threshold exclude := by
  simp only [Query.nearest, h.found]

end Catalogue.Alike

/-- The same manifest, vectors and files, and the same chunks in the same order. -/
structure IndexState.Alike (s t : IndexState) : Prop where
  manifest : t.manifest = s.manifest
  catalogue : s.catalogue.Alike t.catalogue
  table : t.table = s.table
  files : t.files = s.files

/-- Drafts with states that are alike and one report. -/
structure Draft.Alike (d e : Draft) : Prop where
  state : d.state.Alike e.state
  report : e.report = d.report

namespace IndexState.Alike

variable {s t base other : IndexState}

theorem refl (s : IndexState) : Alike s s := ⟨rfl, .refl _, rfl, rfl⟩

theorem withManifest (h : Alike s t) (m : Option Manifest) :
    Alike { s with manifest := m } { t with manifest := m } := { h with manifest := rfl }

theorem removeChunk (h : Alike s t) (id : String) :
    Alike (s.removeChunk id) (t.removeChunk id) where
  manifest := h.manifest
  catalogue := h.catalogue.remove id
  table := congrArg (VectorTable.remove · id) h.table
  files := h.files

theorem decision (h : Alike s t) (k : Alike base other) (c : Chunk) :
    t.decision other c = s.decision base c := by
  have content (hash : String) :
      other.catalogue.findContent? hash = base.catalogue.findContent? hash := by
    rw [Catalogue.findContent?, Catalogue.findContent?, k.catalogue.chunks]
  simp only [IndexState.decision, h.catalogue.found, h.table, content, k.table]

theorem documents (h : Alike s t) (m : Manifest) : t.documents m = s.documents m := by
  simp only [IndexState.documents, Catalogue.toJson, h.catalogue.chunks, h.table, h.files]

end IndexState.Alike

section ReadingBack

theorem Manifest.ReadBack.eq {m n : Manifest} (back : m.ReadBack n)
    (created : Timestamp.parse? m.createdAt.text = some m.createdAt)
    (updated : Timestamp.parse? m.updatedAt.text = some m.updatedAt) : n = m := by
  have created := Option.some.inj (created.symm.trans back.created)
  have updated := Option.some.inj (updated.symm.trans back.updated)
  rw [back.same, ← created, ← updated]

theorem VectorTable.ReadBack.eq {t u : VectorTable} (back : t.ReadBack u)
    (exactly : ∀ id v, t.get? id = some v → Embedding.ofJson? v.toJson = some v) : u = t := by
  have vectors : u.vectors = t.vectors := by
    refine SortedMap.ext_get? fun id => ?_
    have same := back.contains id
    rw [contains_eq_isSome_get?, contains_eq_isSome_get?] at same
    show u.get? id = t.get? id
    cases there : u.get? id with
    | none =>
      rw [there] at same
      exact (Option.isNone_iff_eq_none.mp (by simpa using same.symm)).symm
    | some v =>
      obtain ⟨w, written, read⟩ := back.vectors id v there
      rw [exactly id w written] at read
      rw [written, read]
  obtain ⟨_, _⟩ := t
  obtain ⟨_, _⟩ := u
  cases vectors
  cases back.dimension
  rfl

/-- What is read back is alike if times and vectors are read as what they are. -/
theorem IndexState.ReadBack.alike {t u : IndexState} (back : ReadBack t u)
    (times : ∀ m, t.manifest = some m → Timestamp.parse? m.createdAt.text = some m.createdAt ∧
      Timestamp.parse? m.updatedAt.text = some m.updatedAt)
    (exactly : ∀ id v, t.table.get? id = some v → Embedding.ofJson? v.toJson = some v) :
    t.Alike u := by
  obtain ⟨m, n, written, read, manifest⟩ := back.manifest
  obtain ⟨created, updated⟩ := times m written
  refine ⟨?_, back.catalogue, back.table.eq exactly, back.files⟩
  rw [written, read, manifest.eq created updated]

end ReadingBack

namespace Draft.Alike

variable {d e : Draft} {base other : IndexState} {embedded : Embedded}

theorem foldl {α : Type} {step : Draft → α → Draft}
    (each : ∀ {d e : Draft}, d.Alike e → ∀ x, (step d x).Alike (step e x)) (h : d.Alike e)
    (xs : List α) : (xs.foldl step d).Alike (xs.foldl step e) :=
  List.foldl_rel h fun x _ _ _ related => each related x

theorem forgetFile (h : d.Alike e) (path : String) :
    (d.forgetFile path).Alike (e.forgetFile path) := by
  obtain ⟨catalogue, gone⟩ := h.state.catalogue.removeFile path
  refine ⟨⟨h.state.manifest, catalogue, ?_, ?_⟩, ?_⟩
  · simp only [Draft.forgetFile, h.state.table]
  · simp only [Draft.forgetFile, h.state.files]
  · simp only [Draft.forgetFile, gone, h.state.table, h.report]

theorem dropChunk (h : d.Alike e) (comesBack : List String) (id : String) :
    (d.dropChunk comesBack id).Alike (e.dropChunk comesBack id) where
  state := h.state.removeChunk id
  report := by simp only [Draft.dropChunk, h.report]

theorem skip (h : d.Alike e) (path reason : String) :
    (d.skip path reason).Alike (e.skip path reason) where
  state := h.state
  report := by simp only [Draft.skip, h.report]

/-- A file is planned alike. -/
theorem planFile (h : d.Alike e) (k : base.Alike other) (f : CutFile) :
    (d.planFile base f).1.Alike (e.planFile other f).1 ∧
      (d.planFile base f).2 = (e.planFile other f).2 := by
  have planned (chunks : List Chunk) : (chunks.map fun c => (c, e.state.decision other c)) =
      chunks.map fun c => (c, d.state.decision base c) :=
    List.map_congr_left fun c _ => by rw [h.state.decision k]
  have own : e.state.catalogue.ofFile f.path = d.state.catalogue.ofFile f.path := by
    rw [Catalogue.ofFile, Catalogue.ofFile, h.state.catalogue.chunks]
  obtain ⟨path, hash, chunks⟩ := f
  cases chunks with
  | ok chunks =>
    simp only [Draft.planFile, planned, own]
    exact ⟨foldl (fun related => related.dropChunk _) h _, trivial⟩
  | error reason =>
    simp only [Draft.planFile, Draft.skip, List.map_nil, own]
    exact ⟨foldl (fun related => related.dropChunk _) (h.skip path reason) _, trivial⟩

/-- Storing a chunk has the same outcome. -/
theorem store (h : d.Alike e) (c : Chunk) (v : Embedding) :
    Agree Draft.Alike (d.store c v) (e.store c v) := by
  have tables : Agree (· = ·) (d.state.table.upsert c.id v) (d.state.table.upsert c.id v) :=
    agree_self (fun _ => rfl) _
  rw [Draft.store, Draft.store, h.state.table]
  refine tables.bind ?_
  rintro table _ rfl
  exact .ok ⟨⟨h.state.manifest, h.state.catalogue.set c, rfl, h.state.files⟩, h.report⟩

theorem counted (h : d.Alike e) (change : IndexReport → IndexReport) :
    Alike { d with report := change d.report } { e with report := change e.report } :=
  ⟨h.state, congrArg change h.report⟩

/-- A decision is carried out alike. -/
theorem carryOut (h : d.Alike e) (c : Chunk) (decision : Decision) :
    Agree (fun x y => x.1.Alike y.1 ∧ x.2 = y.2) (d.carryOut embedded c decision)
      (e.carryOut embedded c decision) := by
  cases decision with
  | keep =>
    exact .ok ⟨⟨⟨h.state.manifest, h.state.catalogue.set c, h.state.table, h.state.files⟩,
      h.report⟩, rfl⟩
  | reuse v =>
    refine (h.store c v).bind fun d e related => .ok ⟨?_, rfl⟩
    exact related.counted fun r => { r with chunksReused := r.chunksReused + 1 }
  | embed =>
    simp only [Draft.carryOut]
    cases embedded.vectors.get? c.contentHash with
    | some v =>
      refine (h.store c v).bind fun d e related => .ok ⟨?_, rfl⟩
      exact related.counted fun r => { r with chunksEmbedded := r.chunksEmbedded + 1 }
    | none =>
      exact .ok ⟨h.counted fun r => { r with failedChunks := r.failedChunks ++ [_] }, rfl⟩

theorem carryOutAll (h : d.Alike e) (xs : List (Chunk × Decision)) :
    Agree (fun x y => x.1.Alike y.1 ∧ x.2 = y.2) (d.carryOutAll embedded xs)
      (e.carryOutAll embedded xs) := by
  induction xs generalizing d e with
  | nil => exact .ok ⟨h, rfl⟩
  | cons x xs ih =>
    obtain ⟨c, decision⟩ := x
    refine (h.carryOut c decision).bind ?_
    rintro ⟨d, present⟩ ⟨e, _⟩ ⟨related, rfl⟩
    refine (ih related).bind ?_
    rintro ⟨d, complete⟩ ⟨e, _⟩ ⟨related, rfl⟩
    exact .ok ⟨related, rfl⟩

theorem applyPlan (h : d.Alike e) (p : FilePlan) :
    Agree Draft.Alike (d.applyPlan embedded p) (e.applyPlan embedded p) := by
  refine (h.carryOutAll p.chunks).bind ?_
  rintro ⟨d, complete⟩ ⟨e, _⟩ ⟨related, rfl⟩
  refine .ok ⟨⟨related.state.manifest, related.state.catalogue, related.state.table, ?_⟩,
    related.report⟩
  exact congrArg (SortedMap.insert · p.path _) related.state.files

/-- Plans are carried out alike. -/
theorem applyPlans (h : d.Alike e) (plans : List FilePlan) :
    Agree Draft.Alike (d.applyPlans embedded plans) (e.applyPlans embedded plans) := by
  induction plans generalizing d e with
  | nil => exact .ok h
  | cons p plans ih =>
    simp only [Draft.applyPlans, List.foldlM_cons]
    exact (h.applyPlan p).bind fun d e related => ih related

end Draft.Alike

namespace Session

open Action

variable {σ : Type}

/-- Sessions that are told apart by no question: those of one root, provider and configuration,
whose states are alike. -/
structure Alike (s t : Session σ) : Prop where
  root : t.root = s.root
  provider : t.provider = s.provider
  settings : t.settings = s.settings
  state : s.state.Alike t.state

namespace Alike

variable {s t : Session σ} (h : s.Alike t)

include h

theorem requireManifest : t.requireManifest = s.requireManifest := by
  rw [Session.requireManifest, Session.requireManifest, h.state.manifest, folder, folder, h.root]

theorem findDuplicates (nanBits : Nat → UInt32) (options : GroupOptions) :
    t.findDuplicates nanBits options = s.findDuplicates nanBits options := by
  simp only [Session.findDuplicates, h.requireManifest, Group.find, Group.nodes,
    h.state.catalogue.chunks, h.state.table]

theorem findSimilar (filePath : String) (line : UInt64) (top : Nat) (threshold : Float32) :
    t.findSimilar filePath line top threshold = s.findSimilar filePath line top threshold := by
  have covering :
      t.state.catalogue.covering filePath line = s.state.catalogue.covering filePath line := by
    rw [Catalogue.covering, Catalogue.covering, h.state.catalogue.chunks]
  have shown :
      t.state.catalogue.atLine? filePath line = s.state.catalogue.atLine? filePath line := by
    rw [Catalogue.atLine?, Catalogue.atLine?, covering]
  simp only [Session.findSimilar, h.requireManifest, Query.nearestToLine, shown,
    h.state.catalogue.nearest, h.state.table]

theorem search (query : String) (top : Nat) (threshold : Float32) (p : σ) :
    t.search query top threshold p = s.search query top threshold p := by
  simp only [Session.search, h.requireManifest, Query.nearestToText,
    h.state.catalogue.nearest, h.state.table, h.provider]

theorem stats : t.stats = s.stats := by
  simp only [Session.stats, h.requireManifest, h.state.catalogue.chunks, h.state.files]

end Alike

end Session

end Lookalike
