import Lookalike.Proofs.Index.Settling

/-!
# Running again

A second run over an unchanged tree changes nothing: it cuts the files that are pending once more,
finds their chunks in place, and reports the same failures. No chunk that has failed turns up with a
vector, since a run continues only an index whose stores agree, and a chunk fails there only where
no vector of its content is known. All that can come between is that the second run cannot start,
because the vectors of the index are not as long as the provider says.
-/

namespace Lookalike

open Action (run)

section Together

variable {σ : Type}

/-- A run that succeeds leaves stores that agree if it continues such. -/
theorem Session.Outcome.together {s : Session σ} {outside : Surroundings} {options : IndexOptions}
    {w w' : World σ} {base state : IndexState} {rebuilt : Bool} {current : Snapshot}
    {report : IndexReport}
    (outcome : s.Outcome outside options w base rebuilt current state report w')
    (regular : base.Regular) (together : base.Synchronised) : state.Synchronised := by
  cases outcome with
  | unchanged _ _ _ same => exact same ▸ together
  | updated _ _ t _ _ _ ran _ _ shape _ sizes =>
    subst shape
    have agree : t.Synchronised := (ran regular).updated.regular.synchronised_iff_sizes.mpr sizes
    exact agree

/-- What is read of sound documents is regular, and its stores agree. -/
theorem lasting_together :
    Lasting (fun s => s.Regular ∧ s.Synchronised)
      (IndexContents.Documented (fun _ => True) · ·) where
  within := fun _ _ _ within documented => documented.within within
  absent := fun _ _ absent bytes there => absurd there (absent bytes)
  read := by
    intro _ _ s documented read
    have regular := (documented.sound read).regular
    obtain ⟨_, _, accepted⟩ := IndexState.read_ok.mp read
    exact ⟨regular, IndexState.synchronised_of_agreeing regular.wellFormed accepted.agreeing⟩

/-- A site whose session has stores that agree. -/
abbrev Site.Together (x : Site σ) : Prop :=
  x.Holds (fun s => s.Regular ∧ s.Synchronised) (IndexContents.Documented (fun _ => True) · ·)

theorem Site.Together.base {x : Site σ} (h : x.Together) {base : IndexState} {rebuilt : Bool}
    (start : x.session.StartsFrom x.world.disk base rebuilt) : base.Regular ∧ base.Synchronised :=
  Site.Kept.base ⟨h.loaded, fun s read => lasting_together.read _ _ s h.stored read⟩
    (fun dimension => ⟨IndexState.regular_ofDimension dimension,
      IndexState.synchronised_ofDimension dimension⟩) start

/-- Whatever can be continued in a history has stores that agree: a run is stopped before it writes
others, and others are not accepted when they are read. -/
theorem History.together {x : Site σ} (h : History Attempt.RevealsNothing x) : x.Together := by
  refine h.holds lasting_together fun a reveals leaves before => ?_
  have sound : a.toSite.Sound fun _ => True :=
    ⟨fun loaded => ⟨(before.loaded loaded).1, fun _ _ _ => trivial⟩, before.stored⟩
  have after := Site.Sound.after sound
    (fun _ _ _ _ _ _ _ _ _ _ _ _ _ _ _ => trivial) reveals leaves
  refine ⟨fun loaded => ⟨(after.loaded loaded).regular, ?_⟩, after.stored⟩
  cases ended : a.result with
  | error e =>
    obtain ⟨⟨phase, same⟩, _⟩ := Session.index_error (Attempt.eq_of_result ended)
    rw [same] at loaded ⊢
    exact (before.loaded loaded).2
  | ok report =>
    obtain ⟨state, _, _, _, same, start, outcome⟩ := Session.index_ok (Attempt.eq_of_result ended)
    have ⟨regular, together⟩ := Site.Together.base before (Session.outset_ok start).1
    rw [same]
    exact outcome.together regular together

end Together

section Start

variable {σ : Type} {s : Session σ} {options : IndexOptions} {w : World σ}
variable {base : IndexState} {rebuilt : Bool} {current : Snapshot}

/-- A run that succeeds leaves a manifest of this version and of the model of its provider. -/
theorem Session.Outcome.manifest {outside : Surroundings} {d : Disk} {state : IndexState}
    {report : IndexReport} {w' : World σ} (starts : s.StartsFrom d base rebuilt)
    (regular : base.Regular)
    (outcome : s.Outcome outside options w base rebuilt current state report w') :
    ∃ m, state.manifest = some m ∧ m.version = formatVersion ∧ m.model = s.provider.model := by
  cases outcome with
  | unchanged _ _ indexed same =>
    subst same
    obtain ⟨m, known⟩ := Option.isSome_iff_exists.mp indexed
    exact ⟨m, known, starts.version known, starts.model known⟩
  | updated _ _ t _ _ _ ran _ _ shape =>
    rw [shape]
    refine ⟨_, rfl, version_nextManifest rebuilt outside.now fun m known => ?_, rfl⟩
    rw [(ran regular).manifest] at known
    exact starts.version known

/-- A run that has cut a file has carried the difference over and written the state. -/
theorem Session.Outcome.exists_ran {outside : Surroundings} {state : IndexState}
    {report : IndexReport} {w' : World σ} (regular : base.Regular)
    (outcome : s.Outcome outside options w base rebuilt current state report w') {path : String}
    (processed : path ∈ (Snapshot.diff current base.files).toProcess) :
    ∃ cuts embedded t told v, Ran s outside options base (Snapshot.diff current base.files) w.disk
        cuts embedded t told ∧ options.Reaches w.disk v.disk ∧
      run (s.persist t (s.nextManifest t rebuilt outside.now)) v = (.ok (), w') ∧
      state = { t with manifest := some (s.nextManifest t rebuilt outside.now) } := by
  cases outcome with
  | unchanged nothing =>
    rw [(FileDiff.empty_of_unchanged nothing).2] at processed
    cases processed
  | updated cuts embedded t told v _ ran way written shape =>
    exact ⟨cuts, embedded, t, told, v, ran regular, way, written, shape⟩

/-- The vector length of an index is that of a provider, unless one of them is not known. -/
def Manifest.Measures (m : Manifest) (dimension : Option Nat) : Prop :=
  ∀ expected actual, m.dimension = some expected → dimension = some actual → expected = actual

theorem Manifest.checkCompatible_of_known {m : Manifest} {model : String}
    (version : m.version = formatVersion) (same : m.model = model) (dimension : Option Nat) :
    m.checkCompatible model dimension = .ok () ∧ m.Measures dimension ∨
      ¬m.Measures dimension ∧
        ∃ expected actual, m.checkCompatible model dimension =
          .error (.dimensionMismatch expected actual) := by
  rw [checkCompatible.eq_def, if_neg (not_not.mpr version), if_neg (not_not.mpr same), Measures]
  cases m.dimension with
  | none => simp
  | some expected =>
    cases dimension with
    | none => simp
    | some actual => by_cases fits : expected = actual <;> simp [fits]

theorem Session.StartsFrom.measures {d : Disk} (starts : s.StartsFrom d base rebuilt) {m : Manifest}
    (known : base.manifest = some m) : m.Measures s.provider.dimension := by
  have fits {n : Manifest} (of_base : base.manifest = some n)
      (compatible : n.checkCompatible s.provider.model s.provider.dimension = .ok ()) :
      m.Measures s.provider.dimension := by
    cases of_base.symm.trans known
    rcases Manifest.checkCompatible_of_known (starts.version known) (starts.model known)
      s.provider.dimension with ⟨_, fits⟩ | ⟨_, _, _, mismatch⟩
    · exact fits
    · rw [mismatch] at compatible
      cases compatible
  cases starts with
  | nothing => cases known
  | state n _ of_state compatible => exact fits of_state compatible
  | stored n _ of_base compatible => exact fits of_base compatible

/-- A run that leaves a vector as long as its provider says leaves a manifest that says so too. -/
theorem Session.Outcome.measures {outside : Surroundings} {d : Disk} {state : IndexState}
    {report : IndexReport} {w' : World σ} (starts : s.StartsFrom d base rebuilt)
    (regular : base.Regular)
    (outcome : s.Outcome outside options w base rebuilt current state report w') {id : String}
    {v : Embedding} (there : state.table.get? id = some v)
    (declared : ∀ n, s.provider.dimension = some n → v.size = n) {m : Manifest}
    (known : state.manifest = some m) : m.Measures s.provider.dimension := by
  cases outcome with
  | unchanged _ _ _ same =>
    subst same
    exact starts.measures known
  | updated _ _ t _ _ _ ran _ _ shape =>
    subst shape
    cases known
    intro expected actual length given
    have uniform : t.table.dimension = some v.size :=
      (ran regular).updated.regular.uniform id v there
    have length : t.table.dimension.or s.provider.dimension = some expected := length
    rw [uniform, Option.some_or] at length
    exact (Option.some.inj length).symm.trans (declared actual given)

/-- A session continues what it has loaded, unless that has vectors of another length. -/
theorem Session.prepare_loaded {m : Manifest} (loaded : s.loaded)
    (known : s.state.manifest = some m) (version : m.version = formatVersion)
    (model : m.model = s.provider.model) (d : Disk) :
    s.prepare d false = .ok (s.state, false) ∧ m.Measures s.provider.dimension ∨
      ¬m.Measures s.provider.dimension ∧ ∃ e, s.prepare d false = .error e := by
  have current : s.currentManifest d = .ok (some m) := by
    rw [currentManifest, if_pos loaded, known]
  rcases Manifest.checkCompatible_of_known version model s.provider.dimension with
    ⟨compatible, fits⟩ | ⟨other, expected, actual, mismatch⟩
  · refine .inl ⟨?_, fits⟩
    simp only [prepare, current, compatible, bind, Except.bind, Bool.false_eq_true, if_false,
      if_pos loaded]
    rfl
  · refine .inr ⟨other, .dimensionMismatch expected actual, ?_⟩
    simp only [prepare, current, mismatch, bind, Except.bind, Bool.false_eq_true, if_false]
    rfl

end Start

namespace Attempt

variable {σ : Type} {a b : Attempt σ} {paths : String → Prop}

/-- The run goes over the tree that another has found, in the session that this has left. It is
neither forced nor cancelled, and whoever is told of progress leaves the tree one tree. -/
structure Repeats (b a : Attempt σ) (paths : String → Prop) : Prop where
  session : b.session = a.after.session
  parse : b.outside.parse = a.outside.parse
  exclude : b.options.exclude = a.options.exclude
  unforced : b.options.force = false
  unstopped : ¬b.options.Stops
  first : ∀ d, a.options.Reaches a.world.disk d → a.OneTree paths a.world.disk d
  second : ∀ d, b.options.Reaches b.world.disk d → a.OneTree paths a.world.disk d

/-- What a run leaves behind can be continued: its vectors are as long as the provider says. -/
def Measured (a : Attempt σ) : Prop :=
  ∀ m, a.after.session.state.manifest = some m → m.Measures a.session.provider.dimension

/-- Each file that the run cuts is read with the content that was scanned. -/
def ReadsAll (a : Attempt σ) : Prop :=
  ∀ base rebuilt current, a.outset = .ok (base, rebuilt, current) →
    ∀ path ∈ (Snapshot.diff current base.files).toProcess,
      current.get? path = some (a.cut path).hash

/-- The run succeeds, leaves in memory what another has left there, and reports its failures. -/
structure ChangesNothing (b a : Attempt σ) (report : IndexReport) : Prop where
  succeeds : ∃ told, b.result = .ok told ∧ told.moved = [0, 0, 0] ∧
    told.failedChunks = report.failedChunks
  catalogue : a.after.session.state.catalogue.Alike b.after.session.state.catalogue
  table : b.after.session.state.table = a.after.session.state.table
  files : b.after.session.state.files = a.after.session.state.files

/-- The run does not ask the provider, and the disk is left to others. -/
structure Idle (b : Attempt σ) : Prop where
  provider : b.after.world.provider = b.world.provider
  disk : b.options.Reaches b.world.disk b.after.world.disk
  phases : b.after.world.events.map (·.phase) = [.scanning, .diffing]

/-- What is known of a run that has succeeded. -/
structure Finished (a : Attempt σ) (base : IndexState) (rebuilt : Bool) (current : Snapshot)
    (report : IndexReport) : Prop where
  start : a.outset = .ok (base, rebuilt, current)
  regular : base.Regular
  together : base.Synchronised
  session : a.after.session =
    { a.session with state := a.after.session.state, loaded := true, phase := .idle }
  outcome : a.session.Outcome a.outside a.options a.world base rebuilt current
    a.after.session.state report a.after.world

theorem finished_of_result (h : History RevealsNothing a.toSite) {report : IndexReport}
    (succeeds : a.result = .ok report) :
    ∃ base rebuilt current, a.Finished base rebuilt current report := by
  obtain ⟨state, base, rebuilt, current, same, start, outcome⟩ :=
    Session.index_ok (eq_of_result succeeds)
  have ⟨regular, together⟩ := Site.Together.base h.together (Session.outset_ok start).1
  have state_eq : a.after.session.state = state := by rw [same]
  exact ⟨base, rebuilt, current, start, regular, together, by rw [state_eq, same],
    state_eq ▸ outcome⟩

theorem concludes_of_run {state : IndexState} {report : IndexReport} {w' : World σ}
    (h : run (b.session.bringUpToDate b.outside b.options)
      { b.world with events := [], checks := 0 } = (.ok (state, report), w')) :
    b.result = .ok report ∧
      b.after = ⟨{ b.session with state, loaded := true, phase := .idle }, w'⟩ := by
  rw [result, after, Session.index_eq_conclude, h]
  exact ⟨rfl, rfl⟩

section Both

variable {base : IndexState} {rebuilt : Bool} {current : Snapshot} {report : IndexReport}
variable (done : a.Finished base rebuilt current report) (again : b.Repeats a paths)

include done again

theorem scanned : Scan.snapshot a.world.disk a.session.root
    (a.session.settings.exclude ++ a.options.exclude) = .ok current :=
  scanned_of_tree done.start again.first

theorem hash_ne_pending (path hash : String) (found : current.get? path = some hash) :
    hash ≠ pendingHash := by
  obtain ⟨_, _, bytes, _, _, _, rfl⟩ := Scan.source_of_snapshot (scanned done again) found
  exact hex_ne_empty bytes

theorem session_again : b.session =
    { a.session with state := a.after.session.state, loaded := true, phase := .idle } :=
  again.session.trans done.session

/-- The second run starts from what the first has left, unless the provider does not fit. -/
theorem outset_again : b.outset = .ok (a.after.session.state, false, current) ∧ a.Measured ∨
    ¬a.Measured ∧ ∃ e, b.outset = .error e := by
  have session := session_again done again
  obtain ⟨m, known, version, model⟩ :=
    done.outcome.manifest (Session.outset_ok done.start).1 done.regular
  have measured : a.Measured ↔ m.Measures a.session.provider.dimension := by
    rw [Measured, known]
    exact ⟨fun all => all m rfl, fun fits _ same => Option.some.inj same ▸ fits⟩
  have scans : Scan.snapshot (b.options.diskAfter 0 { phase := .scanning } b.world.disk)
      b.session.root (b.session.settings.exclude ++ b.options.exclude) = .ok current := by
    rw [session, again.exclude, ← scanned done again]
    exact (again.second _ (.event 0 { phase := .scanning } .start)).snapshot.symm
  have prepares := Session.prepare_loaded (s := b.session) (m := m) (by rw [session])
    (by rw [session]; exact known) version (by rw [session]; exact model) b.world.disk
  rw [measured, outset, Session.outset, again.unforced, scans]
  rw [session] at prepares ⊢
  rcases prepares with ⟨prepared, fits⟩ | ⟨other, e, failed⟩
  · exact .inl ⟨by rw [prepared]; rfl, fits⟩
  · exact .inr ⟨other, e, by rw [failed]; rfl⟩

/-- Whenever the second run reads a file that the first has cut, it cuts it alike. -/
theorem cut_again {d : Disk} (reached : b.options.Reaches b.world.disk d) {path : String}
    (processed : path ∈ (Snapshot.diff current base.files).toProcess) :
    b.session.cutFile b.outside.parse d path = a.cut path := by
  have tracked := tracked_of_processed done.start again.first processed
  rw [session_again done again, again.parse]
  exact ((again.second d reached).cutFile a.outside.parse tracked).symm

/-- If the first run has cut a file, the second has room for the documents. -/
theorem room_again {path : String}
    (processed : path ∈ (Snapshot.diff current base.files).toProcess) {d : Disk}
    (reached : b.options.Reaches b.world.disk d) : d.HasRoom b.session.folder := by
  obtain ⟨_, _, t, _, v, _, way, written, _⟩ := done.outcome.exists_ran done.regular processed
  have wrote := (a.session.persist_ok_iff t _ v).mp (congrArg Prod.fst written)
  have before := (again.first v.disk way).room.mpr wrote
  rw [session_again done again]
  exact (again.second d reached).room.mp before

/-- How the second run goes once it has compared. -/
theorem run_again (start : b.outset = .ok (a.after.session.state, false, current)) :
    run (b.session.bringUpToDate b.outside b.options) { b.world with events := [], checks := 0 } =
      if (Snapshot.diff current a.after.session.state.files).hasChanges then
        run (b.session.update b.outside b.options a.after.session.state false
            (Snapshot.diff current a.after.session.state.files))
          (b.world.compared b.options current.size)
      else
        (.ok (a.after.session.state, Session.withTotals
            (Session.reportOf (Snapshot.diff current a.after.session.state.files) false)
            a.after.session.state),
          b.world.compared b.options current.size) := by
  obtain ⟨m, known, _⟩ := done.outcome.manifest (Session.outset_ok done.start).1 done.regular
  rw [Session.bringUpToDate_of_outset b.outside again.unstopped start, known]
  cases (Snapshot.diff current a.after.session.state.files).hasChanges <;> rfl

variable {f : String → Except EmbedError Embedding}
variable (deterministic : a.session.provider.Deterministic f) (apart : a.TellsApart)

include deterministic apart

theorem concluded_of_finished : a.Concluded f (Snapshot.diff current base.files).toProcess current
    a.after.session.state report.failedChunks :=
  concluded done.start again.first done.outcome done.regular deterministic apart

omit again deterministic in
theorem textsTold_again {processed : List String}
    (within : ∀ path ∈ processed, path ∈ (Snapshot.diff current base.files).toProcess) :
    TextsTold (processed.map a.cut) := by
  intro g hg g' hg'
  obtain ⟨path, processed, rfl⟩ := List.mem_map.mp hg
  obtain ⟨other, also, rfl⟩ := List.mem_map.mp hg'
  exact apart.texts _ _ (mayCut_cut done.start (within path processed))
    (mayCut_cut done.start (within other also))

/-- No chunk that the first run has cut could take over a vector from the index that it leaves. -/
theorem not_reuse_again {path : String}
    (processed : path ∈ (Snapshot.diff current base.files).toProcess) {c : Chunk}
    (hc : c ∈ (a.cut path).found) (v : Embedding) :
    a.after.session.state.decision a.after.session.state c ≠ .reuse v := by
  obtain ⟨cuts, _, t, _, _, ran, _, _, shape⟩ := done.outcome.exists_ran done.regular processed
  have is_cut : a.cut path ∈ cuts := by
    rw [cuts_eq done.start again.first ran]
    exact List.mem_map_of_mem processed
  rw [shape]
  exact ran.not_reuse_of_synchronised deterministic
    (fun g hg => apart.distinct g (ran.mayCut done.start hg))
    (fun g hg g' hg' => apart.texts g g' (ran.mayCut done.start hg) (ran.mayCut done.start hg'))
    done.together is_cut hc v

/-- A second run that finds no changes ends with what it has begun with. -/
theorem changesNothing_of_unchanged
    (start : b.outset = .ok (a.after.session.state, false, current))
    (unchanged : (Snapshot.diff current a.after.session.state.files).hasChanges = false) :
    b.ChangesNothing a report := by
  have ended := concluded_of_finished done again deterministic apart
  have failed := ended.failed_again (hash_ne_pending done again)
  have runs := run_again done again start
  rw [unchanged] at runs
  obtain ⟨result, after⟩ := concludes_of_run runs
  rw [(FileDiff.empty_of_unchanged unchanged).2] at failed
  refine ⟨⟨_, result, rfl, failed.symm⟩, ?_, ?_, ?_⟩ <;> rw [after]
  exact .refl _

/-- A second run that finds pending files cuts them as the first has cut them. The first has then
written its state, so the second has room for its own. -/
theorem changesNothing_of_pending
    (start : b.outset = .ok (a.after.session.state, false, current))
    (changes : (Snapshot.diff current a.after.session.state.files).hasChanges) :
    b.ChangesNothing a report := by
  have ended := concluded_of_finished done again deterministic apart
  have runs := run_again done again start
  rw [changes] at runs
  have within (path : String)
      (processed : path ∈ (Snapshot.diff current a.after.session.state.files).toProcess) :
      path ∈ (Snapshot.diff current base.files).toProcess := by
    rw [ended.toProcess_eq] at processed
    exact (List.mem_filter.mp processed).1
  obtain ⟨pending, processed⟩ := List.exists_mem_of_ne_nil _
    (FileDiff.toProcess_ne_nil changes ended.none_deleted)
  have room (d : Disk) := room_again done again (within pending processed) (d := d)
  have way := b.world.reaches_compared b.options current.size
  have provider : b.session.provider = a.session.provider := by
    rw [session_again done again]
  obtain ⟨t, told, w', updates, catalogue, table, files, moved, failed⟩ :=
    Session.update_of_settled b.outside (provider ▸ deterministic) again.unstopped
      ended.regular (done.outcome.together done.regular done.together) ended.none_deleted
      (fun d later path processed =>
        cut_again done again (way.trans later) (within path processed))
      (fun d later => room d (way.trans later))
      (List.forall_mem_map.mpr fun path processed => ended.settled path (within path processed))
      (List.forall_mem_map.mpr fun path processed c hc v =>
        not_reuse_again done again deterministic apart (within path processed) hc v)
      (textsTold_again done apart within)
  obtain ⟨result, after⟩ := concludes_of_run (runs.trans updates)
  have same := ended.failed_again (hash_ne_pending done again)
  refine ⟨⟨told, result, moved, failed.trans same.symm⟩, ?_, ?_, ?_⟩ <;> rw [after]
  · exact catalogue
  · exact table
  · exact files

/-- A second run that can start changes nothing. -/
theorem changesNothing_of_outset
    (start : b.outset = .ok (a.after.session.state, false, current)) :
    b.ChangesNothing a report := by
  cases changes : (Snapshot.diff current a.after.session.state.files).hasChanges with
  | false => exact changesNothing_of_unchanged done again deterministic apart start changes
  | true => exact changesNothing_of_pending done again deterministic apart start changes

/-- If nothing has failed and all files were read as they were scanned, a second run that can start
does nothing. -/
theorem idle_of_outset (none_failed : report.failedChunks = []) (reads : a.ReadsAll)
    (start : b.outset = .ok (a.after.session.state, false, current)) : b.Idle := by
  have ended := concluded_of_finished done again deterministic apart
  have nothing := ended.unchanged_of_complete none_failed
    (reads base rebuilt current done.start)
  have runs := run_again done again start
  have unchanged : (Snapshot.diff current a.after.session.state.files).hasChanges = false := by
    refine Bool.eq_false_iff.mpr fun changes => ?_
    exact FileDiff.toProcess_ne_nil changes ended.none_deleted nothing
  rw [unchanged] at runs
  obtain ⟨_, after⟩ := concludes_of_run runs
  refine ⟨?_, ?_, ?_⟩ <;> rw [after]
  · rfl
  · exact b.world.reaches_compared b.options current.size
  · rfl

end Both

/-- On a disk as disks are, what a run cuts in a tree that stays as it is was scanned so. -/
theorem readsAll_of_sound (sound : a.world.disk.Sound)
    (tree : ∀ d, a.options.Reaches a.world.disk d → a.OneTree paths a.world.disk d) :
    a.ReadsAll := by
  intro base rebuilt current start path processed
  obtain ⟨hash, found, _⟩ := (Snapshot.mem_toProcess current base.files path).mp processed
  obtain ⟨bytes, there, same⟩ := Scan.snapshot_read sound (scanned_of_tree start tree) found
  rw [found, same, cut, Session.cutFile, there]

section Sample

/-- The same run once more, in the session that it has left. -/
def again (a : Attempt σ) : Attempt σ :=
  { a with session := a.after.session, world := a.after.world }

section Letters

variable {a : Attempt Unit} (root : a.session.root = "/r")
variable (settings : a.session.settings = { limits := { minSize := 0 } }) (options : a.options = {})
variable {files : List (String × List UInt8)} (holds : a.world.disk.HoldsFiles files)

include root settings options holds

theorem oneTree_of_holdsFiles {d : Disk} (also : d.HoldsFiles files) :
    a.OneTree (· ∈ files.map (·.1)) a.world.disk d := by
  have excluded : a.session.settings.exclude ++ a.options.exclude = defaultExcludes := by
    rw [settings, options]
    rfl
  rw [OneTree, excluded]
  refine ⟨?_, fun current scanned path tracked => ?_, fun path listed => ?_, ?_⟩
  · rw [root, holds.1, also.1]
  · rw [root, holds.1] at scanned
    cases scanned
    obtain ⟨hash, found⟩ :=
      Option.isSome_iff_exists.mp ((SortedMap.mem_keys_iff _ path).mp tracked)
    obtain ⟨f, member, same⟩ := List.mem_map.mp (SortedMap.mem_of_get?_ofList found)
    cases same
    exact List.mem_map_of_mem member
  · obtain ⟨f, member, rfl⟩ := List.mem_map.mp listed
    rw [root, holds.2.1 f member, also.2.1 f member]
  · rw [Session.folder, root]
    exact iff_of_true holds.2.2 also.2.2

theorem repeats_again (also : a.after.world.disk.HoldsFiles files) :
    a.again.Repeats a (· ∈ files.map (·.1)) where
  session := rfl
  parse := rfl
  exclude := rfl
  unforced := congrArg IndexOptions.force options
  unstopped := by
    rintro ⟨_, _, stopped⟩
    rw [again, options] at stopped
    cases stopped
  first := by
    intro d reached
    rw [reached.eq_of_still (IndexOptions.still_of_none (congrArg IndexOptions.onProgress options))]
    exact oneTree_of_holdsFiles root settings options holds holds
  second := by
    intro d reached
    rw [reached.eq_of_still (IndexOptions.still_of_none (congrArg IndexOptions.onProgress options))]
    exact oneTree_of_holdsFiles root settings options holds also

omit root options holds in
theorem tellsApart_letters (parse : a.outside.parse = letterSurroundings.parse) : a.TellsApart := by
  have letters {g : CutFile} (may : a.MayCut g) :=
    letters_of_mayCut parse (by rw [settings]) may
  exact tellsApart_of_textsApart textsApart_letters (fun _ may => (letters may).1)
    fun _ may => CutFile.distinct_of_length (letters may).2

end Letters

/-- What the provider of the sample makes of a text. -/
def refusingAnswer (text : String) : Except EmbedError Embedding :=
  if text = "A" then .ok #[1] else .error (.malformed "refused")

theorem deterministic_refusingProvider : refusingProvider.Deterministic refusingAnswer where
  single := by
    intro text p
    by_cases taken : text = "A" <;>
      simp [Provider.embed, Provider.embedBatch, refusingProvider, refusingAnswer,
        Provider.single, taken]
  batch := by
    intro texts p
    simp only [Provider.embedBatch, refusingProvider]
    by_cases all : texts.all (· = "A")
    · refine .inl ⟨texts.map fun _ => #[1], by rw [if_pos all], fun _ => ?_⟩
      rw [List.map_map]
      refine List.map_congr_left fun text member => ?_
      have taken : text = "A" := of_decide_eq_true (List.all_eq_true.mp all text member)
      simp [refusingAnswer, taken]
    · exact .inr ⟨_, by rw [if_neg all], .inl rfl⟩

/-- A provider that gives every text a vector with one number, whatever length it declares. -/
def plainProvider (dimension : Option Nat) : Provider Unit :=
  { name := "sample", model := "sample", dimension
    answer := fun _ texts p => (.ok (texts.map fun _ => #[1]), p) }

theorem deterministic_plainProvider (dimension : Option Nat) :
    (plainProvider dimension).Deterministic fun _ => .ok #[1] where
  single := by
    intro text p
    simp [Provider.embed, Provider.embedBatch, plainProvider, Provider.single]
  batch := by
    intro texts p
    refine .inl ⟨texts.map fun _ => #[1], rfl, fun _ => ?_⟩
    rw [List.map_map]
    rfl

/-- A first run that finds no file. -/
def emptySample : Attempt Unit :=
  { session := .new "/r" (plainProvider none) { limits := { minSize := 0 } }
    world := { disk := ({} : Disk).withFile "r/x.js" [65], provider := () }
    outside := letterSurroundings
    options := { exclude := ["x.js"] } }

/-- The next run finds a file, with a provider that declares another length than it gives. -/
def misdeclaredSample : Attempt Unit :=
  { session := .new "/r" (plainProvider (some 2)) { limits := { minSize := 0 } }
    world := emptySample.after.world
    outside := letterSurroundings
    options := {} }

theorem history_misdeclaredSample : History RevealsNothing misdeclaredSample.toSite := by
  have still : emptySample.options.Still := IndexOptions.still_of_none rfl
  have ran : History RevealsNothing emptySample.after :=
    .run emptySample (.start "/r" (plainProvider none) _ _ (ne_ok_of_isOk (by decide +kernel)))
      (revealsNothing_of_unread still (by decide +kernel)) (still.leavesDocuments _)
  have reopened := ran.reopen (plainProvider (some 2)) { limits := { minSize := 0 } }
  rwa [emptySample.after_frame.1] at reopened

end Sample

end Attempt

end Lookalike
