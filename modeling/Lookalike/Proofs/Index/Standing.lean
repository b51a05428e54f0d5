import Lookalike.Proofs.Index.Alike
import Lookalike.Proofs.Index.Batching
import Lookalike.Proofs.Index.Provenance
import Lookalike.Proofs.Index.Room
import Lookalike.Proofs.SortedMap

/-!
# Updates that find everything in place

A file is settled in an index if each of its chunks is in both stores as it was cut, or in neither
because its text is refused, and there are no others; and if it is pending in the second case. A
file is settled after a run has cut it. Cutting settled files again takes nothing out of the index,
and puts nothing in, as long as no vector turns up for a chunk that was refused: the chunks that are
kept are put where they are, and the others are refused once more.
-/

namespace Lookalike

open Action (run)

/-- What an update counts of chunks: those embedded, taken over and removed. -/
def IndexReport.moved (r : IndexReport) : List Nat :=
  [r.chunksEmbedded, r.chunksReused, r.chunksRemoved]

/-- What is reported of a chunk whose text is turned down. -/
def refusal (f : String → Except EmbedError Embedding) (c : Chunk) : FailedChunk :=
  ⟨c.id, c.filePath,
    match f c.text with
    | .ok _ => "not embedded"
    | .error cause => cause.message⟩

namespace IndexState

/-- The chunk is in both stores. -/
def Has (s : IndexState) (c : Chunk) : Prop :=
  s.catalogue.get? c.id = some c ∧ (s.table.get? c.id).isSome

/-- The chunk is in neither store, nor is another with its identity. -/
def Lacks (s : IndexState) (c : Chunk) : Prop :=
  s.catalogue.get? c.id = none ∧ s.table.get? c.id = none

instance (s : IndexState) (c : Chunk) : Decidable (s.Lacks c) :=
  inferInstanceAs (Decidable (_ = none ∧ _ = none))

/-- The chunks of a file that are not in the index. -/
def lacking (s : IndexState) (g : CutFile) : List Chunk := g.found.filter (s.Lacks ·)

/-- What the index has of a file is what was cut, but for the chunks whose texts are refused. -/
structure Settled (f : String → Except EmbedError Embedding) (s : IndexState) (g : CutFile) :
    Prop where
  chunks : ∀ c ∈ g.found, s.Has c ∨
    s.Lacks c ∧ ∃ cause, f c.text = .error cause ∧ cause.isInputSpecific
  only : ∀ id c, s.catalogue.get? id = some c → c.filePath = g.path → c ∈ g.found
  files : s.files.get? g.path = some (if s.lacking g = [] then g.hash else pendingHash)

variable {s : IndexState} {c : Chunk}

theorem Has.not_lacks (has : s.Has c) : ¬s.Lacks c := by
  rintro ⟨nothing, _⟩
  rw [has.1] at nothing
  cases nothing

theorem Has.decision (has : s.Has c) (base : IndexState) : s.decision base c = .keep := by
  simp [IndexState.decision, has.1, VectorTable.contains_eq_isSome_get?, has.2]

/-- A chunk that is lacking takes over a vector, or it waits for one. -/
theorem Lacks.decision (lacks : s.Lacks c) {base : IndexState}
    (none_known : ∀ v, s.decision base c ≠ .reuse v) : s.decision base c = .embed := by
  cases decided : s.decision base c with
  | keep =>
    obtain ⟨⟨x, found, _⟩, _⟩ := keep_known decided
    rw [lacks.1] at found
    cases found
  | reuse v => exact absurd decided (none_known v)
  | embed => rfl

end IndexState

section Carrying

variable {embedded : Embedded} {s : IndexState}

/-- Carrying out the decision leaves the chunk where it is. -/
def Stands (embedded : Embedded) (s : IndexState) (x : Chunk × Decision) : Prop :=
  x.2 = .keep ∧ s.catalogue.get? x.1.id = some x.1 ∨
    x.2 = .embed ∧ embedded.vectors.get? x.1.contentHash = none

theorem Catalogue.Alike.set_known {c d : Catalogue} (alike : c.Alike d) {x : Chunk}
    (known : c.get? x.id = some x) : c.Alike (d.set x) where
  ids := by
    show (d.put x.id x).ids = c.ids
    rw [ids_put, alike.contains, contains_eq_isSome_get?, known, Option.isSome_some, if_pos rfl,
      alike.ids]
  found := by
    intro id
    rw [get?_set, alike.found]
    split
    next own => rw [← own, known]
    next => rfl

theorem SortedMap.insert_known {α : Type} {m : SortedMap α} {key : String} {value : α}
    (known : m.get? key = some value) : m.insert key value = m := by
  refine ext_get? fun wanted => ?_
  rw [get?_insert]
  split
  next own => rw [← own, known]
  next => rfl

namespace Draft

variable {d : Draft}

theorem carryOut_of_stands {x : Chunk × Decision} (stands : Stands embedded s x)
    (alike : s.Alike d.state) : ∃ e, d.carryOut embedded x.1 x.2 =
      .ok (e, x.2.lands embedded x.1) ∧ s.Alike e.state ∧ e.report.moved = d.report.moved := by
  obtain ⟨c, decision⟩ := x
  rcases stands with ⟨rfl, known⟩ | ⟨rfl, missing⟩
  · refine ⟨_, rfl, ?_, rfl⟩
    exact ⟨alike.manifest, alike.catalogue.set_known known, alike.table, alike.files⟩
  · have fails : Decision.embed.lands embedded c = false := by
      simp only [Decision.lands, missing, Option.isSome_none]
    refine ⟨d.fail c (embedded.failure c).reason, ?_, alike, rfl⟩
    rw [fails, carryOut, missing]
    rfl

theorem carryOutAll_of_stands {xs : List (Chunk × Decision)}
    (stands : ∀ x ∈ xs, Stands embedded s x) (alike : s.Alike d.state) :
    ∃ e, d.carryOutAll embedded xs = .ok (e, xs.all fun x => x.2.lands embedded x.1) ∧
      s.Alike e.state ∧ e.report.moved = d.report.moved := by
  induction xs generalizing d with
  | nil => exact ⟨d, rfl, alike, rfl⟩
  | cons x xs ih =>
    obtain ⟨first_stands, others_stand⟩ := List.forall_mem_cons.mp stands
    obtain ⟨e, first, first_alike, first_moved⟩ := carryOut_of_stands first_stands alike
    obtain ⟨e', others, others_alike, others_moved⟩ := ih others_stand first_alike
    refine ⟨e', ?_, others_alike, others_moved.trans first_moved⟩
    rw [carryOutAll, first]
    show (carryOutAll embedded e xs >>= _) = _
    rw [others]
    rfl

theorem applyPlan_of_stands {p : FilePlan} (stands : ∀ x ∈ p.chunks, Stands embedded s x)
    (recorded : s.files.get? p.path = some (p.recorded embedded)) (alike : s.Alike d.state) :
    ∃ e, d.applyPlan embedded p = .ok e ∧ s.Alike e.state ∧ e.report.moved = d.report.moved := by
  obtain ⟨e, carried, carried_alike, moved⟩ := carryOutAll_of_stands stands alike
  refine ⟨{ e with state := e.state.recordFile p.path (p.recorded embedded) }, ?_, ?_, moved⟩
  · rw [applyPlan, carried]
    rfl
  · refine ⟨carried_alike.manifest, carried_alike.catalogue, carried_alike.table, ?_⟩
    show e.state.files.insert p.path (p.recorded embedded) = s.files
    rw [carried_alike.files, SortedMap.insert_known recorded]

/-- Plans under which everything stands are carried out without an error, and change nothing. -/
theorem applyPlans_of_stands {plans : List FilePlan}
    (stands : ∀ p ∈ plans, (∀ x ∈ p.chunks, Stands embedded s x) ∧
      s.files.get? p.path = some (p.recorded embedded)) (alike : s.Alike d.state) :
    ∃ e, d.applyPlans embedded plans = .ok e ∧ s.Alike e.state ∧
      e.report.moved = d.report.moved := by
  induction plans generalizing d with
  | nil => exact ⟨d, rfl, alike, rfl⟩
  | cons p plans ih =>
    obtain ⟨⟨p_stands, recorded⟩, others⟩ := List.forall_mem_cons.mp stands
    obtain ⟨e, first, first_alike, first_moved⟩ := applyPlan_of_stands p_stands recorded alike
    obtain ⟨e', rest, rest_alike, rest_moved⟩ := ih others first_alike
    refine ⟨e', ?_, rest_alike, rest_moved.trans first_moved⟩
    rw [applyPlans, List.foldlM_cons, first]
    exact rest

end Draft

end Carrying

section Planning

namespace Draft

variable {base : IndexState} {d : Draft}

theorem planFile_of_current {g : CutFile} (current : outdatedIds d.state base g = []) :
    (d.planFile base g).1.state = d.state ∧
      (d.planFile base g).1.report.moved = d.report.moved := by
  refine ⟨by rw [planFile_state, current]; rfl, ?_⟩
  obtain ⟨path, hash, chunks⟩ := g
  cases chunks with
  | ok chunks =>
    show ((outdatedIds d.state base ⟨path, hash, .ok chunks⟩).foldl
      (dropChunk (chunks.map (·.id))) d).report.moved = _
    rw [current]
    rfl
  | error reason =>
    show ((outdatedIds d.state base ⟨path, hash, .error reason⟩).foldl (dropChunk [])
      (d.skip path reason)).report.moved = _
    rw [current]
    rfl

/-- Planning files of which nothing is outdated takes nothing out. -/
theorem planAll_of_current {cuts : List CutFile}
    (current : ∀ g ∈ cuts, outdatedIds d.state base g = []) :
    (d.planAll base cuts).1.state = d.state ∧
      (d.planAll base cuts).1.report.moved = d.report.moved ∧
      (d.planAll base cuts).2 = cuts.map (d.state.planOf base) := by
  induction cuts generalizing d with
  | nil => exact ⟨rfl, rfl, rfl⟩
  | cons g cuts ih =>
    obtain ⟨g_current, others⟩ := List.forall_mem_cons.mp current
    obtain ⟨state, moved⟩ := planFile_of_current g_current
    have later := ih (d := (d.planFile base g).1) (by rwa [state])
    refine ⟨later.1.trans state, later.2.1.trans moved, ?_⟩
    show (d.planFile base g).2 :: ((d.planFile base g).1.planAll base cuts).2 = _
    rw [later.2.2, planFile_plan, state, List.map_cons]

end Draft

end Planning

section Lacking

variable {f : String → Except EmbedError Embedding} {s base t : IndexState}
  {cuts : List CutFile} {embedded : Embedded}

/-- Chunks with the same hash have the same text. -/
def TextsTold (cuts : List CutFile) : Prop :=
  ∀ g ∈ cuts, ∀ g' ∈ cuts, ∀ c ∈ g.found, ∀ x ∈ g'.found, x.contentHash = c.contentHash →
    x.text = c.text

/-- A chunk that waits is queued with its own text. -/
theorem mem_queue_of_embed (told : TextsTold cuts) {g : CutFile} (hg : g ∈ cuts) {c : Chunk}
    (hc : c ∈ g.found) (waits : s.decision base c = .embed) :
    ⟨c.contentHash, c.text⟩ ∈ queueOf (cuts.map (s.planOf base)) := by
  have planned : (c, Decision.embed) ∈ (cuts.map (s.planOf base)).flatMap (·.chunks) :=
    IndexState.mem_planned.mpr ⟨g, hg, c, hc, by rw [waits]⟩
  obtain ⟨q, queued, same⟩ := exists_mem_queueOf planned
  obtain ⟨x, waiting, rfl⟩ := mem_queueOf queued
  obtain ⟨g', hg', y, hy, planned⟩ := IndexState.mem_planned.mp waiting
  obtain rfl := (Prod.mk.inj planned).1
  rw [← same, ← told g hg g' hg' c hc x hy same]
  exact queued

/-- What the contents come to that wait when files are planned. -/
def IndexState.awaited (s base : IndexState) (cuts : List CutFile)
    (f : String → Except EmbedError Embedding) : Embedded :=
  .settled f (queueOf (cuts.map (s.planOf base)))

/-- A chunk that waits gets the vector of its text in the end, or it is reported with the reason for
which its text is turned down. -/
theorem awaited_of_embed (told : TextsTold cuts) {g : CutFile} (hg : g ∈ cuts) {c : Chunk}
    (hc : c ∈ g.found) (waits : s.decision base c = .embed) :
    ((s.awaited base cuts f).vectors.get? c.contentHash = none ↔
        ∃ cause, f c.text = .error cause) ∧
      ((s.awaited base cuts f).vectors.get? c.contentHash = none →
        (s.awaited base cuts f).failure c = refusal f c) := by
  obtain ⟨vectors, failures⟩ := Embedded.get?_settled_of_mem (f := f) (nodup_queueOf _)
    (mem_queue_of_embed told hg hc waits)
  dsimp only at vectors failures
  rw [← IndexState.awaited] at vectors failures
  cases answer : f c.text with
  | ok v =>
    have found := (vectors v).mpr answer
    simp [found]
  | error cause =>
    have missing : (s.awaited base cuts f).vectors.get? c.contentHash = none := by
      refine Option.eq_none_iff_forall_ne_some.mpr fun v found => ?_
      have given := (vectors v).mp found
      rw [answer] at given
      cases given
    have reason := (failures _).mpr ⟨cause, answer, rfl⟩
    simp [missing, Embedded.failure, refusal, reason, answer]

variable (lands : ∀ g ∈ cuts, ∀ c ∈ g.found, (s.decision base c).lands embedded c ↔ ¬t.Lacks c)

include lands

/-- If just those chunks land that the index does not lack then, a file is recorded as pending if
the index lacks one of its chunks. -/
theorem recorded_of_lands {g : CutFile} (hg : g ∈ cuts) : (s.planOf base g).recorded embedded =
    if t.lacking g = [] then g.hash else pendingHash := by
  have all : ((s.planOf base g).chunks.all fun x => x.2.lands embedded x.1) ↔
      t.lacking g = [] := by
    simp only [IndexState.planOf, List.all_map, List.all_eq_true, Function.comp,
      IndexState.lacking, List.filter_eq_nil_iff, decide_eq_true_eq]
    exact forall₂_congr (lands g hg)
  simp only [FilePlan.recorded, all]
  rfl

/-- Then the chunks that the index lacks are those that are reported. -/
theorem failures_of_lands (reason : ∀ g ∈ cuts, ∀ c ∈ g.found, t.Lacks c →
      embedded.failure c = refusal f c) :
    ((((cuts.map (s.planOf base)).flatMap (·.chunks)).filter fun x =>
        !x.2.lands embedded x.1).map fun x => embedded.failure x.1) =
      (cuts.flatMap t.lacking).map (refusal f) := by
  induction cuts with
  | nil => rfl
  | cons g cuts ih =>
    obtain ⟨g_lands, others⟩ := List.forall_mem_cons.mp lands
    obtain ⟨g_reason, other_reasons⟩ := List.forall_mem_cons.mp reason
    have own : (((s.planOf base g).chunks.filter fun x => !x.2.lands embedded x.1).map
        fun x => embedded.failure x.1) = (t.lacking g).map (refusal f) := by
      rw [IndexState.planOf, List.filter_map, List.map_map, IndexState.lacking]
      have same : g.found.filter ((fun x : Chunk × Decision => !x.2.lands embedded x.1) ∘
          fun c => (c, s.decision base c)) = g.found.filter (t.Lacks ·) := by
        refine List.filter_congr fun c hc => ?_
        have c_lands := g_lands c hc
        by_cases lacks : t.Lacks c <;> simp [lacks] at c_lands ⊢ <;> exact c_lands
      rw [same]
      refine List.map_congr_left fun c hc => ?_
      obtain ⟨member, lacks⟩ := List.mem_filter.mp hc
      exact g_reason c member (of_decide_eq_true lacks)
    rw [List.map_cons, List.flatMap_cons, List.filter_append, List.map_append, own,
      ih others other_reasons, List.flatMap_cons, List.map_append]

end Lacking

section Again

variable {f : String → Except EmbedError Embedding} {s : IndexState} {cuts : List CutFile}
variable (regular : s.Regular) (settled : ∀ g ∈ cuts, s.Settled f g)

include regular settled in
theorem outdatedIds_of_settled {g : CutFile} (hg : g ∈ cuts) :
    Draft.outdatedIds s s g = [] := by
  refine List.eq_nil_iff_forall_not_mem.mpr fun id member => ?_
  obtain ⟨⟨c, found, own⟩, not_kept⟩ := (Draft.mem_outdatedIds regular s g id).mp member
  have hc := (settled g hg).only id c found own
  obtain rfl := regular.wellFormed.keyed id c found
  rcases (settled g hg).chunks c hc with has | ⟨lacks, _⟩
  · exact not_kept ⟨c, hc, rfl, has.decision s⟩
  · rw [lacks.1] at found
    cases found

variable (none_known : ∀ g ∈ cuts, ∀ c ∈ g.found, ∀ v, s.decision s c ≠ .reuse v)

include settled none_known

/-- A chunk of settled files is kept, or it waits and its text is refused. -/
theorem keep_or_refused {g : CutFile} (hg : g ∈ cuts) {c : Chunk} (hc : c ∈ g.found) :
    s.Has c ∧ s.decision s c = .keep ∨ s.Lacks c ∧ s.decision s c = .embed ∧
      ∃ cause, f c.text = .error cause ∧ cause.isInputSpecific := by
  rcases (settled g hg).chunks c hc with has | ⟨lacks, refused⟩
  · exact .inl ⟨has, has.decision s⟩
  · exact .inr ⟨lacks, lacks.decision (none_known g hg c hc), refused⟩

/-- Nothing is queued that is fatal. -/
theorem not_fatal_of_settled :
    ¬∃ q ∈ queueOf (cuts.map (s.planOf s)), Fatal f q.text := by
  rintro ⟨q, queued, cause, answer, other⟩
  obtain ⟨c, waits, rfl⟩ := mem_queueOf queued
  obtain ⟨g, hg, x, hx, planned⟩ := IndexState.mem_planned.mp waits
  obtain ⟨rfl, decided⟩ := Prod.mk.inj planned
  rcases keep_or_refused settled none_known hg hx with ⟨_, keep⟩ | ⟨_, _, _, refused, specific⟩
  · rw [keep] at decided
    cases decided
  · rw [refused] at answer
    cases answer
    exact other specific

variable (told : TextsTold cuts)

include told

/-- Chunks of settled files stand after their texts were embedded again. Those that the index lacks
are reported as they were. -/
theorem stands_of_settled {g : CutFile} (hg : g ∈ cuts) {c : Chunk} (hc : c ∈ g.found) :
    Stands (s.awaited s cuts f) s (c, s.decision s c) ∧
      ((s.decision s c).lands (s.awaited s cuts f) c ↔ ¬s.Lacks c) ∧
      (s.Lacks c → (s.awaited s cuts f).failure c = refusal f c) := by
  rcases keep_or_refused settled none_known hg hc with
    ⟨has, keep⟩ | ⟨lacks, waits, cause, refused, _⟩
  · rw [keep]
    exact ⟨.inl ⟨rfl, has.1⟩, iff_of_true rfl has.not_lacks,
      fun lacks => absurd lacks has.not_lacks⟩
  · have ⟨missing_iff, reason⟩ := awaited_of_embed (f := f) told hg hc waits
    have missing := missing_iff.mpr ⟨cause, refused⟩
    rw [waits]
    refine ⟨.inr ⟨rfl, missing⟩, iff_of_false ?_ (not_not.mpr lacks), fun _ => reason missing⟩
    simp [Decision.lands, missing]

include regular

/-- Settled files are planned and carried out again without an error. That changes nothing, and the
same chunks are reported. -/
theorem Draft.applyPlans_of_settled (report : IndexReport) :
    ∃ draft applied,
      Draft.planAll s { state := s, report } cuts = (draft, cuts.map (s.planOf s)) ∧
      draft.applyPlans (s.awaited s cuts f) (cuts.map (s.planOf s)) = .ok applied ∧
      s.Alike applied.state ∧ applied.report.moved = report.moved ∧
      applied.report.failedChunks =
        report.failedChunks ++ (cuts.flatMap s.lacking).map (refusal f) := by
  have stands (g : CutFile) (hg : g ∈ cuts) (c : Chunk) (hc : c ∈ g.found) :=
    stands_of_settled settled none_known told hg hc
  have lands (g : CutFile) (hg : g ∈ cuts) (c : Chunk) (hc : c ∈ g.found) := (stands g hg c hc).2.1
  obtain ⟨state, moved, plans⟩ := planAll_of_current (d := { state := s, report })
    fun g hg => outdatedIds_of_settled regular settled hg
  have told_by_plans := continues_planAll s { state := s, report } cuts
  generalize Draft.planAll s { state := s, report } cuts = made at state moved plans told_by_plans
  obtain ⟨draft, _⟩ := made
  dsimp only at state moved plans told_by_plans
  subst plans
  have each : ∀ p ∈ cuts.map (s.planOf s), (∀ x ∈ p.chunks, Stands (s.awaited s cuts f) s x) ∧
      s.files.get? p.path = some (p.recorded (s.awaited s cuts f)) := by
    intro p hp
    obtain ⟨g, hg, rfl⟩ := List.mem_map.mp hp
    refine ⟨fun x hx => ?_, ?_⟩
    · obtain ⟨c, hc, rfl⟩ := List.mem_map.mp hx
      exact (stands g hg c hc).1
    · rw [recorded_of_lands lands hg]
      exact (settled g hg).files
  obtain ⟨applied, applies, alike, applied_moved⟩ :=
    applyPlans_of_stands (d := draft) each (state.symm ▸ .refl s)
  refine ⟨draft, applied, rfl, applies, alike, applied_moved.trans moved, ?_⟩
  rw [(failed_applyPlans applies).2, told_by_plans.failedChunks,
    failures_of_lands lands fun g hg c hc => (stands g hg c hc).2.2]

end Again

section Run

open Action

variable {σ : Type} {options : IndexOptions} {w : World σ}

theorem Yields.run_ok {α : Type} {x : Action σ α} {a : α} (h : Yields options x a)
    (unstopped : ¬options.Stops) (w : World σ) : ∃ w', run x w = (.ok a, w') := by
  rcases h w with found | ⟨_, stops⟩
  · exact ⟨_, Prod.ext found rfl⟩
  · exact absurd stops unstopped

namespace Session

variable {s : Session σ} {outside : Surroundings} {cut : String → CutFile}

/-- If a file is cut alike on all disks that may be reached, a run that nobody cancels plans what is
cut on any of them. -/
theorem planFiles_of_unstopped (unstopped : ¬options.Stops) {base : IndexState} {done total : Nat}
    {d : Draft} {paths : List String} (alike : ∀ e, options.Reaches w.disk e → ∀ path ∈ paths,
      s.cutFile outside.parse e path = cut path) :
    ∃ w', run (s.planFiles outside options base done total d paths) w =
      (.ok (d.planAll base (paths.map cut)), w') := by
  induction paths generalizing done d w with
  | nil => exact ⟨w, rfl⟩
  | cons path rest ih =>
    obtain ⟨w₁, checked⟩ := yields_checkCancelled.run_ok unstopped w
    obtain ⟨w₂, told⟩ := (yields_tell
      { phase := .chunking, current := done + 1, total, file := some path }).run_ok unstopped w₁
    have reached := (passive_checkCancelled _ _ _ checked).reached.trans (reaches_tell told)
    have first := alike w₂.disk reached path List.mem_cons_self
    obtain ⟨w', planned⟩ : ∃ w', run (s.planFiles outside options base (done + 1) total
        (d.planFile base (cut path)).1 rest) w₂ =
          (.ok ((d.planFile base (cut path)).1.planAll base (rest.map cut)), w') :=
      ih fun e later other member =>
        alike e (reached.trans later) other (List.mem_cons_of_mem path member)
    refine ⟨w', run_bind_ok.mpr ⟨_, w₁, checked, run_bind_ok.mpr ⟨_, w₂, told,
      run_bind_ok.mpr ⟨_, w₂, rfl, ?_⟩⟩⟩⟩
    dsimp only
    rw [first]
    exact run_bind_ok.mpr ⟨_, w', planned, rfl⟩

variable {f : String → Except EmbedError Embedding} {base : IndexState} {diff : FileDiff}

/-- An update of settled files that nobody cancels and that has room for the documents succeeds. It
changes nothing but the manifest, and reports what was reported before. -/
theorem update_of_settled (outside : Surroundings) (deterministic : s.provider.Deterministic f)
    (unstopped : ¬options.Stops) (regular : base.Regular) (together : base.Synchronised)
    (none_deleted : diff.deleted = [])
    (alike : ∀ e, options.Reaches w.disk e → ∀ path ∈ diff.toProcess,
      s.cutFile outside.parse e path = cut path)
    (room : ∀ e, options.Reaches w.disk e → e.HasRoom s.folder)
    (settled : ∀ g ∈ diff.toProcess.map cut, base.Settled f g)
    (none_known : ∀ g ∈ diff.toProcess.map cut, ∀ c ∈ g.found, ∀ v,
      base.decision base c ≠ .reuse v)
    (told : TextsTold (diff.toProcess.map cut)) :
    ∃ t report w', run (s.update outside options base false diff) w = (.ok (t, report), w') ∧
      base.catalogue.Alike t.catalogue ∧ t.table = base.table ∧ t.files = base.files ∧
      report.moved = [0, 0, 0] ∧ report.failedChunks =
        ((diff.toProcess.map cut).flatMap base.lacking).map (refusal f) := by
  obtain ⟨draft, applied, planned, applies, state, moved, failed⟩ :=
    Draft.applyPlans_of_settled regular settled none_known told (reportOf diff false)
  obtain ⟨w₁, plans⟩ : ∃ w₁, run (s.planFiles outside options base 0 diff.toProcess.length
      { state := base, report := reportOf diff false } diff.toProcess) w =
        (.ok (draft, (diff.toProcess.map cut).map (base.planOf base)), w₁) :=
    planned ▸ planFiles_of_unstopped unstopped alike
  obtain ⟨w₂, checked⟩ := yields_checkCancelled.run_ok unstopped w₁
  obtain ⟨w₃, embedding⟩ := ((comesTo_embedQueue deterministic s.settings.batchSize
    s.settings.concurrency outside.moves (nodup_queueOf _)).yields
      (not_fatal_of_settled settled none_known)).run_ok unstopped w₂
  obtain ⟨w₄, checked_again⟩ := yields_checkCancelled.run_ok unstopped w₃
  obtain ⟨w₅, writing⟩ := (yields_tell { phase := .persisting }).run_ok unstopped w₄
  have passed := (((passive_planFiles _ _ _ _ _ _ _ _ plans).trans
    (passive_checkCancelled _ _ _ checked)).trans
    (passive_embedQueue _ _ _ _ _ _ _ _ embedding)).trans
    (passive_checkCancelled _ _ _ checked_again)
  have reached : options.Reaches w.disk w₅.disk := passed.reached.trans (reaches_tell writing)
  let m := s.nextManifest applied.state false outside.now
  obtain ⟨w', written⟩ : ∃ w', run (s.persist applied.state m) w₅ = (.ok (), w') :=
    ⟨_, Prod.ext ((s.persist_ok_iff applied.state m w₅).mpr (room _ reached)) rfl⟩
  have sizes : applied.state.catalogue.size = applied.state.table.size := by
    rw [state.catalogue.size, state.table, together.sizes regular.wellFormed]
  refine ⟨{ applied.state with manifest := some m }, withTotals applied.report applied.state, w',
    ?_, state.catalogue, state.table, state.files, moved, failed⟩
  rw [update, none_deleted]
  refine run_bind_ok.mpr ⟨_, w₁, plans, run_bind_ok.mpr ⟨_, w₂, checked, run_bind_ok.mpr
    ⟨_, w₃, embedding, run_bind_ok.mpr ⟨applied, w₃, ?_, run_bind_ok.mpr ⟨_, w₄, checked_again,
      run_bind_ok.mpr ⟨_, w₅, writing, run_bind_ok.mpr
        ⟨_, w', writeOut_ok.mpr ⟨sizes, written⟩, rfl⟩⟩⟩⟩⟩⟩⟩
  exact run_ofExcept_ok.mpr ⟨applies, rfl⟩

end Session

end Run

end Lookalike
