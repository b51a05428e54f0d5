import Lookalike.Proofs.Index.State

/-!
# Planning the changed files

The first of two passes over the files that changed decides for each chunk what becomes of it and
takes the outdated chunks out of the state. No file touches the chunks of another, so the decisions
on all files are those that the state before the pass gives.
-/

namespace Lookalike

open VectorTable (startsWith)
open IndexState (Regular)

section Planning

/-- The chunks of a file that is indexed; none if the file is skipped. -/
def CutFile.found (f : CutFile) : List Chunk :=
  match f.chunks with
  | .ok chunks => chunks
  | .error _ => []

/-- Every chunk was cut from the file. -/
def CutFile.Genuine (f : CutFile) : Prop := ∀ c ∈ f.found, Chunk.CutFrom f.path c

/-- Chunks with the same identity are the same. -/
def CutFile.Distinct (f : CutFile) : Prop := ∀ c ∈ f.found, ∀ x ∈ f.found, x.id = c.id → x = c

theorem CutFile.distinct_of_length {f : CutFile} (h : f.found.length ≤ 1) : f.Distinct := by
  intro c hc d hd _
  generalize f.found = chunks at h hc hd
  obtain _ | ⟨x, _ | ⟨y, rest⟩⟩ := chunks
  · cases hc
  · rw [List.mem_singleton.mp hc, List.mem_singleton.mp hd]
  · simp at h

namespace IndexState

/-- The plan for a file, given the state as it is and the state that the run started from. -/
def planOf (s base : IndexState) (f : CutFile) : FilePlan :=
  { path := f.path, hash := f.hash, chunks := f.found.map fun c => (c, s.decision base c) }

/-- A chunk of the file with this identity is to be kept. -/
def Keeps (s base : IndexState) (f : CutFile) (id : String) : Prop :=
  ∃ c ∈ f.found, c.id = id ∧ s.decision base c = .keep

/-- The chunk with this identity belongs to the file and is not to be kept. -/
def Outdated (s base : IndexState) (f : CutFile) (id : String) : Prop :=
  (∃ c, s.catalogue.get? id = some c ∧ c.filePath = f.path) ∧ ¬s.Keeps base f id

theorem keep_known {s base : IndexState} {c : Chunk} (h : s.decision base c = .keep) :
    (∃ old, s.catalogue.get? c.id = some old ∧ old.contentHash = c.contentHash) ∧
      (s.table.get? c.id).isSome := by
  simp only [decision] at h
  split at h
  next known =>
    simp only [Bool.and_eq_true, Option.any_eq_true, decide_eq_true_eq,
      VectorTable.contains_eq_isSome_get?] at known
    exact known
  next => split at h <;> cases h

theorem reuse_known {s base : IndexState} {c : Chunk} {v : Embedding}
    (h : s.decision base c = .reuse v) :
    ∃ same, base.catalogue.findContent? c.contentHash = some same ∧
      base.table.get? same.id = some v := by
  simp only [decision] at h
  split at h
  next => cases h
  next =>
    split at h
    next found =>
      cases h
      exact Option.bind_eq_some_iff.mp found
    next => cases h

/-- A decision depends on what is found under the identity of the chunk only. -/
theorem decision_congr {s t : IndexState} (base : IndexState) {c : Chunk}
    (catalogue : t.catalogue.get? c.id = s.catalogue.get? c.id)
    (table : t.table.get? c.id = s.table.get? c.id) : t.decision base c = s.decision base c := by
  simp only [decision, catalogue, VectorTable.contains_eq_isSome_get?, table]

end IndexState

/-- How many files of each class a report counts. -/
def IndexReport.classes (r : IndexReport) : List Nat :=
  [r.filesAdded, r.filesModified, r.filesDeleted, r.filesUnchanged]

/-- A later report counts the same files and names no other chunks as failed. -/
structure IndexReport.Continues (earlier later : IndexReport) : Prop where
  classes : later.classes = earlier.classes
  failedChunks : later.failedChunks = earlier.failedChunks

theorem IndexReport.Continues.trans {q r s : IndexReport} (h : q.Continues r) (k : r.Continues s) :
    q.Continues s := ⟨k.classes.trans h.classes, k.failedChunks.trans h.failedChunks⟩

namespace Draft

theorem continues_foldl {α : Type} (step : Draft → α → Draft)
    (each : ∀ (d : Draft) x, d.report.Continues (step d x).report) (xs : List α) (d : Draft) :
    d.report.Continues (xs.foldl step d).report :=
  List.foldlRecOn xs step (motive := fun e => d.report.Continues e.report) ⟨rfl, rfl⟩
    fun e continues x _ => continues.trans (each e x)

theorem continues_planFile (base : IndexState) (d : Draft) (f : CutFile) :
    d.report.Continues (d.planFile base f).1.report := by
  have dropped (d : Draft) (comesBack gone : List String) :
      d.report.Continues (gone.foldl (dropChunk comesBack) d).report :=
    continues_foldl (dropChunk comesBack) (fun _ _ => ⟨rfl, rfl⟩) gone d
  obtain ⟨path, hash, chunks⟩ := f
  cases chunks with
  | ok chunks => exact dropped d _ _
  | error reason =>
    have skipped : d.report.Continues (d.skip path reason).report := ⟨rfl, rfl⟩
    exact skipped.trans (dropped (d.skip path reason) _ _)

theorem state_foldl_dropChunk (comesBack gone : List String) (d : Draft) :
    (gone.foldl (dropChunk comesBack) d).state = gone.foldl IndexState.removeChunk d.state :=
  (List.foldl_hom Draft.state fun _ _ => rfl).symm

theorem planFile_plan (base : IndexState) (d : Draft) (f : CutFile) :
    (d.planFile base f).2 = d.state.planOf base f := by
  obtain ⟨path, hash, chunks⟩ := f
  cases chunks <;> rfl

/-- What planning one file makes of a state. -/
structure Planned (s base : IndexState) (f : CutFile) (t : IndexState) : Prop where
  regular : Regular t
  gone : ∀ id, s.Outdated base f id → t.catalogue.get? id = none ∧ t.table.get? id = none
  same : ∀ id, ¬s.Outdated base f id →
    t.catalogue.get? id = s.catalogue.get? id ∧ t.table.get? id = s.table.get? id
  files : t.files = s.files

/-- The identities that planning a file takes out. -/
def outdatedIds (s base : IndexState) (f : CutFile) : List String :=
  ((s.catalogue.ofFile f.path).map (·.id)).filter fun id =>
    id ∉ (((f.found.map fun c => (c, s.decision base c)).filter (·.2 = .keep)).map (·.1.id))

theorem planFile_state (base : IndexState) (d : Draft) (f : CutFile) :
    (d.planFile base f).1.state =
      (outdatedIds d.state base f).foldl IndexState.removeChunk d.state := by
  obtain ⟨path, hash, chunks⟩ := f
  cases chunks with
  | ok chunks => exact state_foldl_dropChunk _ _ d
  | error reason => exact state_foldl_dropChunk _ _ (d.skip path reason)

theorem mem_outdatedIds {s : IndexState} (r : Regular s) (base : IndexState) (f : CutFile)
    (id : String) : id ∈ outdatedIds s base f ↔ s.Outdated base f id := by
  have kept :
      id ∈ ((f.found.map fun c => (c, s.decision base c)).filter (·.2 = .keep)).map (·.1.id) ↔
      s.Keeps base f id := by
    simp only [List.mem_map, List.mem_filter, IndexState.Keeps]
    constructor
    · rintro ⟨_, ⟨⟨c, hc, rfl⟩, keep⟩, own⟩
      exact ⟨c, hc, own, by simpa using keep⟩
    · rintro ⟨c, hc, own, keep⟩
      exact ⟨_, ⟨⟨c, hc, rfl⟩, by simpa using keep⟩, own⟩
  simp only [outdatedIds, List.mem_filter, Catalogue.mem_ids_ofFile r.wellFormed, decide_not,
    Bool.not_eq_true', decide_eq_false_iff_not, kept, IndexState.Outdated]

theorem planFile_planned {d : Draft} (r : Regular d.state) (base : IndexState) (f : CutFile) :
    Planned d.state base f (d.planFile base f).1.state := by
  rw [planFile_state]
  refine ⟨IndexState.regular_foldl_removeChunk r _, fun id outdated => ?_, fun id current => ?_,
    IndexState.files_foldl_removeChunk _ d.state⟩
  · have gone := (mem_outdatedIds r base f id).mpr outdated
    rw [IndexState.get?_catalogue_foldl_removeChunk, IndexState.get?_table_foldl_removeChunk,
      if_pos gone, if_pos gone]
    exact ⟨rfl, rfl⟩
  · have stays : id ∉ outdatedIds d.state base f := fun h =>
      current ((mem_outdatedIds r base f id).mp h)
    rw [IndexState.get?_catalogue_foldl_removeChunk, IndexState.get?_table_foldl_removeChunk,
      if_neg stays, if_neg stays]
    exact ⟨rfl, rfl⟩

/-- Planning a file leaves what belongs to another file as it is. -/
theorem Planned.other {s base t : IndexState} {f : CutFile} (p : Planned s base f t) (r : Regular s)
    {path id : String} (h : Chunk.IsIdOf path id) (different : path ≠ f.path) :
    t.catalogue.get? id = s.catalogue.get? id ∧ t.table.get? id = s.table.get? id := by
  refine p.same id ?_
  rintro ⟨⟨c, found, own⟩, _⟩
  exact different ((r.path_of_found found h).symm.trans own)

/-- Plans files one after the other. -/
def planAll (base : IndexState) (d : Draft) : List CutFile → Draft × List FilePlan
  | [] => (d, [])
  | f :: rest =>
    let (d, plan) := d.planFile base f
    let (d, plans) := planAll base d rest
    (d, plan :: plans)

theorem continues_planAll (base : IndexState) (d : Draft) (cuts : List CutFile) :
    d.report.Continues (d.planAll base cuts).1.report := by
  induction cuts generalizing d with
  | nil => exact ⟨rfl, rfl⟩
  | cons f cuts ih => exact (continues_planFile base d f).trans (ih (d.planFile base f).1)

/-- What planning some files makes of a state. -/
structure AllPlanned (s base : IndexState) (cuts : List CutFile) (t : IndexState) : Prop where
  regular : Regular t
  gone : ∀ id, (∃ f ∈ cuts, s.Outdated base f id) →
    t.catalogue.get? id = none ∧ t.table.get? id = none
  same : ∀ id, (¬∃ f ∈ cuts, s.Outdated base f id) →
    t.catalogue.get? id = s.catalogue.get? id ∧ t.table.get? id = s.table.get? id
  files : t.files = s.files

section OtherFiles

variable {s base t : IndexState} {f g : CutFile}

/-- What is decided on a file does not depend on another that was planned before. -/
theorem Planned.decision (p : Planned s base f t) (r : Regular s) (different : g.path ≠ f.path)
    (genuine : g.Genuine) {c : Chunk} (hc : c ∈ g.found) :
    t.decision base c = s.decision base c := by
  have ⟨catalogue, table⟩ := p.other r (genuine c hc).identity different
  exact IndexState.decision_congr base catalogue table

theorem Planned.planOf (p : Planned s base f t) (r : Regular s) (different : g.path ≠ f.path)
    (genuine : g.Genuine) : t.planOf base g = s.planOf base g := by
  simp only [IndexState.planOf, FilePlan.mk.injEq, true_and]
  exact List.map_congr_left fun c hc => by rw [p.decision r different genuine hc]

theorem Planned.outdated (p : Planned s base f t) (r : Regular s) (different : g.path ≠ f.path)
    (genuine : g.Genuine) (id : String) : t.Outdated base g id ↔ s.Outdated base g id := by
  have keeps : t.Keeps base g id ↔ s.Keeps base g id := by
    constructor
    · rintro ⟨c, hc, own, keep⟩
      exact ⟨c, hc, own, (p.decision r different genuine hc).symm.trans keep⟩
    · rintro ⟨c, hc, own, keep⟩
      exact ⟨c, hc, own, (p.decision r different genuine hc).trans keep⟩
  rw [IndexState.Outdated, IndexState.Outdated, keeps]
  constructor
  · rintro ⟨⟨c, found, own⟩, not_kept⟩
    refine ⟨⟨c, ?_, own⟩, not_kept⟩
    by_cases first : s.Outdated base f id
    · rw [(p.gone id first).1] at found
      cases found
    · rw [← (p.same id first).1]
      exact found
  · rintro ⟨⟨c, found, own⟩, not_kept⟩
    have identity : Chunk.IsIdOf g.path id := own ▸ r.isIdOf found
    exact ⟨⟨c, (p.other r identity different).1.trans found, own⟩, not_kept⟩

end OtherFiles

/-- The decisions on each file are those that the first state gives, since no file touches the
chunks of another. -/
theorem planAll_planned {cuts : List CutFile} {d : Draft} (r : Regular d.state) (base : IndexState)
    (distinct : (cuts.map (·.path)).Nodup) (genuine : ∀ f ∈ cuts, f.Genuine) :
    (d.planAll base cuts).2 = cuts.map (d.state.planOf base) ∧
      AllPlanned d.state base cuts (d.planAll base cuts).1.state := by
  induction cuts generalizing d with
  | nil => exact ⟨rfl, r, by simp, fun _ _ => ⟨rfl, rfl⟩, rfl⟩
  | cons f cuts ih =>
    have ⟨f_new, distinct⟩ := List.nodup_cons.mp distinct
    have first := planFile_planned r base f
    have other : ∀ g ∈ cuts, g.path ≠ f.path := fun g hg same =>
      f_new (List.mem_map.mpr ⟨g, hg, same⟩)
    have genuine_cuts : ∀ g ∈ cuts, g.Genuine := fun g hg => genuine g (List.mem_cons_of_mem f hg)
    have outdated (g : CutFile) (hg : g ∈ cuts) := first.outdated r (other g hg) (genuine_cuts g hg)
    obtain ⟨plans, rest⟩ := ih first.regular distinct genuine_cuts
    constructor
    · show (d.planFile base f).2 :: (planAll base (d.planFile base f).1 cuts).2 = _
      rw [List.map_cons, planFile_plan, plans]
      exact congrArg _ (List.map_congr_left fun g hg =>
        first.planOf r (other g hg) (genuine_cuts g hg))
    · refine ⟨rest.regular, fun id gone => ?_, fun id current => ?_, rest.files.trans first.files⟩
      · by_cases later : ∃ g ∈ cuts, (d.planFile base f).1.state.Outdated base g id
        · exact rest.gone id later
        · obtain ⟨g, hg, out⟩ := gone
          rcases List.mem_cons.mp hg with rfl | hg
          · have ⟨catalogue, table⟩ := rest.same id later
            have ⟨no_chunk, no_vector⟩ := first.gone id out
            exact ⟨catalogue.trans no_chunk, table.trans no_vector⟩
          · exact absurd ⟨g, hg, (outdated g hg id).mpr out⟩ later
      · have not_first : ¬d.state.Outdated base f id := fun out =>
          current ⟨f, List.mem_cons_self, out⟩
        have not_later : ¬∃ g ∈ cuts, (d.planFile base f).1.state.Outdated base g id := by
          rintro ⟨g, hg, out⟩
          exact current ⟨g, List.mem_cons_of_mem f hg, (outdated g hg id).mp out⟩
        have ⟨catalogue, table⟩ := rest.same id not_later
        have ⟨first_catalogue, first_table⟩ := first.same id not_first
        exact ⟨catalogue.trans first_catalogue, table.trans first_table⟩

end Draft

end Planning

end Lookalike
