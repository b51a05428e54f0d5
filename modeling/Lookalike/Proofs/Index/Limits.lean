import Lookalike.Proofs.Index.Synchronisation
import Lookalike.Proofs.Index.UpToDate
import Lookalike.Proofs.Index.Patching
import Lookalike.Proofs.Text.Normal

/-!
# Chunk limits

The limits for the sizes of chunks are not part of the manifest, so an index that was made under
other limits is continued. What a run cuts is within the limits of that run; what belongs to an
unchanged file is not cut again and keeps the limits of the run that cut it last. An index is
within the limits of the last run if and only if the chunks of the unchanged files are.
-/

namespace Lookalike

/-- A chunk is within the limits. -/
structure ChunkLimits.Admits (limits : ChunkLimits) (c : Chunk) : Prop where
  most : c.text.length ≤ limits.maxChars
  least : limits.minSize ≤ Text.inkLength c.text.toList

instance (limits : ChunkLimits) (c : Chunk) : Decidable (limits.Admits c) :=
  decidable_of_iff (c.text.length ≤ limits.maxChars ∧
    limits.minSize ≤ Text.inkLength c.text.toList) ⟨fun h => ⟨h.1, h.2⟩, fun h => ⟨h.1, h.2⟩⟩

section Cutting

theorem CodeUnit.admits_of_chunk? {lang : Language} {limits : ChunkLimits} {path source : String}
    {p : Placed} {ordinal : Nat} {c : Chunk}
    (h : chunk? lang limits path source p ordinal = some c) : limits.Admits c := by
  have cut := isCut_of_chunk? h
  constructor
  · rw [cut.text]
    exact Text.length_normalize_le _ _
  · rw [cut.text]
    exact cut.large

/-- Cutting a source file gives chunks within the limits. -/
theorem ChunkLimits.admits_of_mem_chunksOf {lang : Language} {limits : ChunkLimits}
    {path source : String} {root : SyntaxTree} {c : Chunk}
    (h : c ∈ chunksOf lang limits path source root) : limits.Admits c := by
  obtain ⟨⟨p, ordinal⟩, _, made⟩ := List.mem_filterMap.mp h
  exact CodeUnit.admits_of_chunk? made

variable {σ : Type} {s : Session σ} {outside : Surroundings} {options : IndexOptions}

theorem Session.CutOnTheWay.admits {d : Disk} {f : CutFile}
    (h : s.CutOnTheWay outside options d f) {c : Chunk} (hc : c ∈ f.found) :
    s.settings.limits.Admits c := by
  obtain ⟨e, _, same⟩ := h
  rw [same] at hc
  rcases found_cutFile s outside.parse e f.path with nothing | ⟨_, _, _, _, chunks⟩
  · simp [nothing] at hc
  · rw [chunks] at hc
    exact ChunkLimits.admits_of_mem_chunksOf hc

end Cutting

section Runs

variable {σ : Type} {s : Session σ} {outside : Surroundings} {options : IndexOptions}
variable {base state : IndexState} {rebuilt : Bool} {current : Snapshot} {report : IndexReport}
variable {w w' : World σ}

/-- Every file with chunks is recorded. -/
def IndexState.Tracked (s : IndexState) : Prop :=
  ∀ id c, s.catalogue.get? id = some c → (s.files.get? c.filePath).isSome

/-- What is found after a run is of a file that was cut, within the limits, or it was there before
and is of a file that was left alone. -/
theorem Session.Outcome.found
    (outcome : s.Outcome outside options w base rebuilt current state report w')
    (regular : base.Regular) {id : String} {c : Chunk} (found : state.catalogue.get? id = some c) :
    (c.filePath ∈ (Snapshot.diff current base.files).toProcess ∧ s.settings.limits.Admits c) ∨
      c.filePath ∉ (Snapshot.diff current base.files).deleted ∧
        c.filePath ∉ (Snapshot.diff current base.files).toProcess ∧
        base.catalogue.get? id = some c := by
  cases outcome with
  | unchanged nothing _ _ same =>
    have ⟨no_deleted, no_processed⟩ := FileDiff.empty_of_unchanged nothing
    rw [no_deleted, no_processed]
    exact .inr ⟨List.not_mem_nil, List.not_mem_nil, same ▸ found⟩
  | updated cuts embedded t told v _ ran _ _ shape =>
    have ran := ran regular
    rw [shape] at found
    rcases ran.updated.found found with ⟨f, hf, hc, _⟩ | untouched
    · exact .inl ⟨(ran.path_mem_of_found hf hc).2, (ran.cut f hf).admits hc⟩
    · refine .inr ⟨untouched.present, fun processed => ?_, untouched.found⟩
      obtain ⟨f, hf, same⟩ := (ran.cut_iff c.filePath).mpr processed
      exact untouched.uncut f hf same

theorem Snapshot.left_alone_of_mem_unchanged {previous : Snapshot} {path : String}
    (unchanged : path ∈ (diff current previous).unchanged) :
    path ∉ (diff current previous).deleted ∧ path ∉ (diff current previous).toProcess := by
  obtain ⟨hash, _, before⟩ := (mem_unchanged current previous path).mp unchanged
  exact (mem_unchanged_of_known (by rw [before]; rfl)).mp unchanged

/-- The files that were left alone and have chunks are the unchanged ones. -/
theorem IndexState.Tracked.unchanged_iff (tracked : base.Tracked) {id : String} {c : Chunk}
    (found : base.catalogue.get? id = some c) :
    c.filePath ∈ (Snapshot.diff current base.files).unchanged ↔
      c.filePath ∉ (Snapshot.diff current base.files).deleted ∧
        c.filePath ∉ (Snapshot.diff current base.files).toProcess :=
  Snapshot.mem_unchanged_of_known (tracked id c found)

theorem Session.Outcome.tracked
    (outcome : s.Outcome outside options w base rebuilt current state report w')
    (regular : base.Regular) (tracked : base.Tracked) : state.Tracked := by
  intro id c found
  rw [outcome.isSome_files regular]
  rcases outcome.found regular found with ⟨processed, _⟩ | ⟨present, uncut, before⟩
  · obtain ⟨hash, there, _⟩ := (Snapshot.mem_toProcess current base.files c.filePath).mp processed
    rw [there]
    rfl
  · rw [← Snapshot.get?_of_left_alone present uncut]
    exact tracked id c before

theorem Session.Outcome.regular
    (outcome : s.Outcome outside options w base rebuilt current state report w')
    (regular : base.Regular) : state.Regular := by
  cases outcome with
  | unchanged _ _ _ same => exact same ▸ regular
  | updated cuts embedded t told v _ ran _ _ shape =>
    rw [shape]
    exact (ran regular).updated.regular.withManifest _

end Runs

section Histories

variable {σ : Type}

/-- Every chunk is within limits that were used for its file. -/
def IndexState.Within (Used : String → ChunkLimits → Prop) (s : IndexState) : Prop :=
  ∀ id c, s.catalogue.get? id = some c → ∃ limits, Used c.filePath limits ∧ limits.Admits c

/-- What runs that succeed keep, whatever their limits are. -/
structure IndexState.Limited (Used : String → ChunkLimits → Prop) (s : IndexState) : Prop where
  regular : s.Regular
  tracked : s.Tracked
  within : s.Within Used

namespace Attempt

/-- The run succeeds, and its limits are among those that are used for the files that it cuts. -/
structure CutsWithin (Used : String → ChunkLimits → Prop) (a : Attempt σ) : Prop where
  succeeds : ∃ report, a.result = .ok report
  used : ∀ base rebuilt current, a.outset = .ok (base, rebuilt, current) →
    ∀ path ∈ (Snapshot.diff current base.files).toProcess, Used path a.session.settings.limits

variable {Used : String → ChunkLimits → Prop} {a : Attempt σ}

theorem invariant_limited (Used : String → ChunkLimits → Prop) :
    Invariant (CutsWithin (σ := σ) Used) (IndexState.Limited Used) where
  nothing := by
    intro dimension
    refine ⟨IndexState.regular_ofDimension dimension, ?_, ?_⟩ <;>
      · intro id c found
        simp [IndexState.ofDimension] at found
  wellFormed := fun t limited => limited.regular.wellFormed
  readBack := by
    intro t u limited b
    refine ⟨limited.regular.readBack b, fun id c found => ?_, fun id c found => ?_⟩
    · rw [b.catalogue.found] at found
      rw [b.files]
      exact limited.tracked id c found
    · rw [b.catalogue.found] at found
      exact limited.within id c found
  succeeded := by
    intro a base rebuilt current state report w' cuts limited start outcome
    refine ⟨outcome.regular limited.regular, outcome.tracked limited.regular limited.tracked, ?_⟩
    intro id c found
    rcases outcome.found limited.regular found with ⟨processed, admits⟩ | ⟨_, _, before⟩
    · exact ⟨_, cuts.used base rebuilt current start c.filePath processed, admits⟩
    · exact limited.within id c before
  failed := by
    intro a e cuts failed
    obtain ⟨report, succeeds⟩ := cuts.succeeds
    rw [failed] at succeeds
    cases succeeds

/-- A chunk of the index after a run: the session has it, or it is read from the documents. -/
def Indexes (a : Attempt σ) (id : String) (c : Chunk) : Prop :=
  a.after.session.state.catalogue.get? id = some c ∨
    ∃ s, a.after.stored = .ok s ∧ s.catalogue.get? id = some c

/-- After runs that succeed, the chunks of a file that the last of them cut are within its limits.
Those of an unchanged file are as they were, within limits under which the file was cut before. So
all chunks are within the limits of the last run exactly if those of the unchanged files are. -/
theorem within_limits_iff_unchanged_within (h : History (CutsWithin Used) a.toSite)
    (cuts : a.CutsWithin Used) (leaves : a.options.LeavesDocuments a.session.folder)
    {base : IndexState} {rebuilt : Bool} {current : Snapshot}
    (start : a.outset = .ok (base, rebuilt, current)) :
    ((∀ id c, a.after.session.state.catalogue.get? id = some c →
        a.session.settings.limits.Admits c) ↔
      ∀ id c, base.catalogue.get? id = some c →
        c.filePath ∈ (Snapshot.diff current base.files).unchanged →
        a.session.settings.limits.Admits c) ∧
      (∀ id c, a.after.session.state.catalogue.get? id = some c →
        c.filePath ∈ (Snapshot.diff current base.files).toProcess ∧
            a.session.settings.limits.Admits c ∨
          c.filePath ∈ (Snapshot.diff current base.files).unchanged) ∧
      (∀ id c, c.filePath ∈ (Snapshot.diff current base.files).unchanged →
        (a.after.session.state.catalogue.get? id = some c ↔ base.catalogue.get? id = some c)) ∧
      ∀ id c, a.Indexes id c → ∃ limits, Used c.filePath limits ∧ limits.Admits c := by
  obtain ⟨report, succeeds⟩ := cuts.succeeds
  obtain ⟨state, base', rebuilt', current', same, start', outcome⟩ :=
    Session.index_ok (eq_of_result succeeds)
  have start' : a.outset = .ok (base', rebuilt', current') := start'
  rw [start] at start'
  cases start'
  have invariant := invariant_limited (σ := σ) Used
  have limited : base.Limited Used := invariant.base h (Session.outset_ok start).1
  have at_unchanged (id : String) (c : Chunk)
      (unchanged : c.filePath ∈ (Snapshot.diff current base.files).unchanged) :
      state.catalogue.get? id = some c ↔ base.catalogue.get? id = some c := by
    have ⟨present, uncut⟩ := Snapshot.left_alone_of_mem_unchanged unchanged
    exact (outcome.sameAt limited.regular present uncut).catalogue id c rfl
  have of_found (id : String) (c : Chunk) (found : state.catalogue.get? id = some c) :
      c.filePath ∈ (Snapshot.diff current base.files).toProcess ∧
          a.session.settings.limits.Admits c ∨
        c.filePath ∈ (Snapshot.diff current base.files).unchanged := by
    rcases outcome.found limited.regular found with processed | ⟨present, uncut, before⟩
    · exact .inl processed
    · exact .inr ((limited.tracked.unchanged_iff before).mpr ⟨present, uncut⟩)
  have kept := invariant.run a cuts leaves (invariant.history h)
  have in_memory := kept.loaded (by rw [same])
  rw [same] at in_memory ⊢
  refine ⟨⟨fun all id c before unchanged => ?_, fun carried id c found => ?_⟩, of_found,
    at_unchanged, ?_⟩
  · exact all id c ((at_unchanged id c unchanged).mpr before)
  · rcases of_found id c found with ⟨_, admits⟩ | unchanged
    · exact admits
    · exact carried id c ((at_unchanged id c unchanged).mp found) unchanged
  · rintro id c (found | ⟨s, read, found⟩)
    · rw [same] at found
      exact in_memory.within id c found
    · exact (kept.stored s read).within id c found

section Sample

/-- A parser that finds one function in every text, which is the whole of it. -/
def wholeTexts : Surroundings :=
  { now := ⟨0, 0⟩
    parse := fun _ source =>
      let stop := source.utf8ByteSize
      some (.node "program" true none 0 stop
        [.node "function_declaration" true none 0 stop []]) }

def looseSample : Attempt Unit :=
  { session := .new "/r" sampleProvider { limits := { minSize := 0 } }
    world := { disk := ({} : Disk).withFile "r/x.js" [65, 66, 67], provider := () }
    outside := wholeTexts
    options := {} }

/-- The next run, of a new session with other limits, over the same tree. -/
def strictSample : Attempt Unit :=
  { session := .new looseSample.after.session.root sampleProvider
      { limits := { minSize := 5, maxChars := 2 } }
    world := looseSample.after.world
    outside := wholeTexts
    options := {} }

/-- The first run, evaluated once for all that is said of it. -/
theorem evaluated_looseSample : looseSample.result.isOk ∧
    (looseSample.session.contents looseSample.world.disk manifestName).isOk = false ∧
    (looseSample.after.session.state.table.vectors.entries.all fun x =>
      Embedding.ofJson? x.2.toJson = some x.2) ∧
    looseSample.after.session.state.table.dimension = some 1 ∧
    (looseSample.after.session.state.manifest.any fun m =>
      m.version = formatVersion ∧ m.model = sampleProvider.model ∧ m.dimension = some 1 ∧
        m.chunkCount = 1 ∧ m.fileCount = 1) ∧
    ((Scan.snapshot
      (strictSample.options.diskAfter 0 { phase := .scanning } strictSample.world.disk)
      strictSample.session.root
      (strictSample.session.settings.exclude ++ strictSample.options.exclude)).toOption.any
        fun current => current.entries = looseSample.after.session.state.files.entries) ∧
    (looseSample.after.session.state.catalogue.get? "x.js#942e1b83a4249181").any fun c =>
      c.text = "ABC" ∧ ¬strictSample.session.settings.limits.Admits c := by
  decide +kernel

/-- What the first run has written is read back, and the second can continue it. -/
theorem readBack_looseSample : ∃ u m, looseSample.after.stored = .ok u ∧
    looseSample.after.session.state.Alike u ∧ u.manifest = some m ∧
    m.checkCompatible sampleProvider.model sampleProvider.dimension = .ok () := by
  obtain ⟨loose_ok, absent, vectors, dimension, manifest, _⟩ := evaluated_looseSample
  obtain ⟨report, succeeds⟩ := exists_of_isOk loose_ok
  obtain ⟨m, known, recorded⟩ := (Option.any_eq_true _ _).mp manifest
  obtain ⟨version, model, length, chunks, files⟩ := of_decide_eq_true recorded
  have clock : Timestamp.parse? wholeTexts.now.text = some wholeTexts.now := by decide +kernel
  have unread : ∀ s, looseSample.toSite.stored ≠ .ok s :=
    IndexState.read_ne_ok (ne_ok_of_isOk absent)
  have fits (n : Manifest) (same : looseSample.after.session.state.manifest = some n) : n.Fits := by
    cases known.symm.trans same
    refine ⟨by rw [version]; decide, fun d same => ?_, by rw [chunks]; decide,
      by rw [files]; decide⟩
    cases length.symm.trans same
    decide
  have short (n : Nat) (same : looseSample.after.session.state.table.dimension = some n) :
      n < Number.longBound := by
    cases dimension.symm.trans same
    decide
  have exact_vectors (id : String) (v : Embedding)
      (there : looseSample.after.session.state.table.get? id = some v) :
      Embedding.ofJson? v.toJson = some v :=
    of_decide_eq_true (List.all_eq_true.mp vectors (id, v)
      ((SortedMap.mem_entries_iff _ _ _).mpr there))
  obtain ⟨u, stored, alike⟩ :=
    readBack_of_unindexed rfl unread succeeds clock fits short exact_vectors
  refine ⟨u, m, stored, alike, alike.manifest.trans known, ?_⟩
  simp [Manifest.checkCompatible, version, model, length, sampleProvider]

/-- The second run finds nothing to do. -/
theorem outset_strictSample : ∃ u current, strictSample.outset = .ok (u, false, current) ∧
    (Snapshot.diff current u.files).hasChanges = false ∧ u.manifest.isSome ∧
    looseSample.after.session.state.Alike u := by
  obtain ⟨_, _, _, _, _, scanned, _⟩ := evaluated_looseSample
  obtain ⟨u, m, stored, alike, known, compatible⟩ := readBack_looseSample
  have prepared : strictSample.session.prepare strictSample.world.disk false = .ok (u, false) :=
    Session.prepare_stored rfl stored known compatible
  obtain ⟨current, scan, same⟩ := exists_of_any scanned
  obtain rfl : current = u.files :=
    (SortedMap.ext_entries (of_decide_eq_true same)).trans alike.files.symm
  refine ⟨u, u.files, ?_, Snapshot.hasChanges_self u.files, by rw [known]; rfl, alike⟩
  exact bind_eq_ok.mpr ⟨_, prepared, bind_eq_ok.mpr ⟨_, scan, rfl⟩⟩

/-- The two runs succeed, the second cuts nothing, and the chunk of the first is left. -/
theorem evaluated_strictSample : looseSample.result.isOk ∧
    (looseSample.session.contents looseSample.world.disk manifestName).isOk = false ∧
    strictSample.result.isOk ∧
    (strictSample.outset.toOption.all fun (base, _, current) =>
      (Snapshot.diff current base.files).toProcess.isEmpty) ∧
    (strictSample.after.session.state.catalogue.get? "x.js#942e1b83a4249181").any fun c =>
      c.text = "ABC" ∧ ¬strictSample.session.settings.limits.Admits c := by
  obtain ⟨loose_ok, absent, _, _, _, _, chunk⟩ := evaluated_looseSample
  obtain ⟨u, current, start, nothing, indexed, alike⟩ := outset_strictSample
  have unstopped : ¬strictSample.options.Stops := by
    rintro ⟨_, _, stops⟩
    cases stops
  have runs := Session.bringUpToDate_of_outset strictSample.outside unstopped start
  rw [nothing, indexed] at runs
  have ended : strictSample.session.index strictSample.outside strictSample.options
      strictSample.world =
        (.ok (Session.withTotals (Session.reportOf (Snapshot.diff current u.files) false) u),
          { strictSample.session with state := u, loaded := true, phase := .idle },
          strictSample.world.compared strictSample.options current.size) := by
    rw [Session.index]
    exact runs ▸ rfl
  refine ⟨loose_ok, absent, ?_, ?_, ?_⟩
  · rw [result, ended]
    rfl
  · rw [start]
    show (Snapshot.diff current u.files).toProcess.isEmpty = true
    rw [(FileDiff.empty_of_unchanged nothing).2]
    rfl
  · rw [after, ended]
    show (u.catalogue.get? _).any _ = true
    rw [alike.catalogue.found]
    exact chunk

theorem history_strictSample {allowed : Attempt Unit → Prop} (first : allowed looseSample) :
    History allowed strictSample.toSite := by
  obtain ⟨_, absent, _⟩ := evaluated_strictSample
  have indexed : History allowed looseSample.after :=
    .run looseSample (.start "/r" sampleProvider _ _ (ne_ok_of_isOk absent)) first
      ((IndexOptions.still_of_none rfl).leavesDocuments _)
  exact indexed.reopen sampleProvider _

/-- The chunk of the first run stays in the index, although it is too long for the second run and
too small. -/
theorem strictSample_keeps : ∃ id c,
    strictSample.after.session.state.catalogue.get? id = some c ∧
      ¬strictSample.session.settings.limits.Admits c := by
  obtain ⟨_, _, _, _, kept⟩ := evaluated_strictSample
  obtain ⟨c, found, rest⟩ := (Option.any_eq_true _ _).mp kept
  exact ⟨_, c, found, (of_decide_eq_true rest).2⟩

/-- Every chunk that is indexed after the second run is within the limits of the first, which cut
its file, and not all are within those of the second. -/
theorem strictSample_within_first_limits :
    (∀ id c, strictSample.Indexes id c → looseSample.session.settings.limits.Admits c) ∧
      ¬∀ id c, strictSample.after.session.state.catalogue.get? id = some c →
        strictSample.session.settings.limits.Admits c := by
  obtain ⟨loose_ok, _, strict_ok, nothing_cut, _⟩ := evaluated_strictSample
  obtain ⟨report, succeeds⟩ := exists_of_isOk strict_ok
  obtain ⟨_, base, rebuilt, current, _, start, _⟩ := Session.index_ok (eq_of_result succeeds)
  have start : strictSample.outset = .ok (base, rebuilt, current) := start
  rw [start] at nothing_cut
  have loose : CutsWithin (fun _ limits => limits = looseSample.session.settings.limits)
      looseSample := ⟨exists_of_isOk loose_ok, fun _ _ _ _ _ _ => rfl⟩
  have strict : CutsWithin (fun _ limits => limits = looseSample.session.settings.limits)
      strictSample := by
    refine ⟨⟨report, succeeds⟩, fun base' rebuilt' current' start' path processed => ?_⟩
    rw [start] at start'
    cases start'
    rw [List.isEmpty_iff.mp nothing_cut] at processed
    cases processed
  have ⟨_, _, _, indexed⟩ := within_limits_iff_unchanged_within (history_strictSample loose)
    strict ((IndexOptions.still_of_none rfl).leavesDocuments _) start
  refine ⟨fun id c there => ?_, fun all => ?_⟩
  · obtain ⟨limits, rfl, admits⟩ := indexed id c there
    exact admits
  · obtain ⟨id, c, there, not_admitted⟩ := strictSample_keeps
    exact not_admitted (all id c there)

/-- Not all chunks are within the limits of the last run, although all runs succeeded. -/
theorem chunks_beyond_limits : ¬∀ a : Attempt Unit,
    History (fun run => ∃ report, run.result = .ok report) a.toSite →
    (∃ report, a.result = .ok report) →
    ∀ id c, a.after.session.state.catalogue.get? id = some c →
      a.session.settings.limits.Admits c := by
  intro honoured
  obtain ⟨loose_ok, _, strict_ok, _⟩ := evaluated_strictSample
  obtain ⟨id, c, there, not_admitted⟩ := strictSample_keeps
  exact not_admitted (honoured strictSample (history_strictSample (exists_of_isOk loose_ok))
    (exists_of_isOk strict_ok) id c there)

end Sample

end Attempt

end Histories

end Lookalike
