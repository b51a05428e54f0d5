import Lookalike.Proofs.Index.Drafts
import Lookalike.Proofs.Index.Failure
import Lookalike.Proofs.Index.Hidden
import Lookalike.Proofs.Index.Room
import Lookalike.Proofs.Index.VersionGate

/-!
# Rebuilding an index

A run that is forced, or that finds a manifest of another format or another model, starts from the
empty state, as a first run does. From there on both go side by side: what was in memory or in the
index folder shows in neither, except that the index folder may have no room for the new documents.
Only the dates differ, and whether the report tells of a rebuild.
-/

namespace Lookalike

open Action

/-- A manifest with one date. -/
def Manifest.redated (now : Timestamp) (m : Manifest) : Manifest :=
  { m with createdAt := now, updatedAt := now }

/-- A state with one date in its manifest. -/
def IndexState.redated (now : Timestamp) (t : IndexState) : IndexState :=
  { t with manifest := t.manifest.map (Manifest.redated now) }

namespace Session

variable {σ : Type} (s : Session σ) (outside : Surroundings) (options : IndexOptions)

section Force

variable (force : Bool)

theorem planFiles_of_force (base : IndexState) (done total : Nat) (d : Draft)
    (paths : List String) : s.planFiles outside { options with force } base done total d paths =
      s.planFiles outside options base done total d paths := by
  induction paths generalizing done d with
  | nil => rfl
  | cons path rest ih =>
    simp only [planFiles, ih]
    rfl

theorem embedBatches_of_force (p : Provider σ) (limit total : Nat) (moves : List Move) (done : Nat)
    (e : Embedded) (flying : List SentBatch) (waiting : List (List QueuedText)) :
    embedBatches p { options with force } limit total moves done e flying waiting =
      embedBatches p options limit total moves done e flying waiting := by
  fun_induction embedBatches p options limit total moves done e flying waiting with
  | case1 _ _ _ _ _ next => rw [embedBatches.eq_def, next]
  | case2 _ _ _ _ _ _ _ next ih =>
    rw [embedBatches.eq_def, next]
    simp only [ih]
  | case3 _ _ _ _ _ _ _ next ih =>
    rw [embedBatches.eq_def, next]
    simp only [ih]
    rfl

/-- Whether a run is forced matters only for what it starts from. -/
theorem update_of_force (base : IndexState) (rebuilt : Bool) (diff : FileDiff) :
    s.update outside { options with force } base rebuilt diff =
      s.update outside options base rebuilt diff := by
  simp only [update, planFiles_of_force, embedQueue, embedBatches_of_force]
  rfl

end Force

/-- The session finds one tree on two disks as far as it reads files at these paths only, and it has
room for its index on both or on neither. -/
structure OneTree (s : Session σ) (exclude : List String) (paths : String → Prop) (d e : Disk) :
    Prop where
  snapshot : Scan.snapshot d s.root exclude = Scan.snapshot e s.root exclude
  within : ∀ current, Scan.snapshot d s.root exclude = .ok current →
    ∀ path ∈ current.keys, paths path
  read : ∀ path, paths path → d.read (Path.join s.root path) = e.read (Path.join s.root path)
  room : d.HasRoom s.folder ↔ e.HasRoom s.folder

/-- Nothing is said of the worlds of runs that failed. -/
def unrelated : Terms σ := { failed := fun _ _ => True }

variable {s}

theorem OneTree.cutFile {exclude : List String} {paths : String → Prop} {d e : Disk}
    (trees : s.OneTree exclude paths d e) (parse : Language → String → Option SyntaxTree)
    {path : String} (tracked : paths path) : s.cutFile parse d path = s.cutFile parse e path := by
  simp only [Session.cutFile, trees.read path tracked]

/-- On disks that have room both or neither, a state is written to both or to neither. -/
theorem parallel_persist_of_room {disks : Disk → Disk → Prop} {same : σ → σ → Prop}
    (room : ∀ d e, disks d e → (d.HasRoom s.folder ↔ e.HasRoom s.folder)) (t : IndexState)
    (m n : Manifest) : Parallel unrelated (Beside disks same) (fun _ _ => True) (· = ·)
      (s.persist t m) (s.renewed.persist t n) := by
  intro w w' worlds
  have first := s.persist_ok_iff t m w
  have second := s.renewed.persist_ok_iff t n w'
  have only := onlyWrites_persist s t m w
  have only' := onlyWrites_persist s.renewed t n w'
  have both := room _ _ worlds.disk
  generalize run (s.persist t m) w = left at *
  generalize run (s.renewed.persist t n) w' = right at *
  obtain ⟨_ | _, v⟩ := left
  · obtain ⟨_ | _, v'⟩ := right
    · obtain rfl := (only _ v rfl).2 _ rfl
      obtain rfl := (only' _ v' rfl).2 _ rfl
      exact .neither trivial
    · have has_room := both.mpr (second.mp rfl)
      cases first.mpr has_room
  · obtain ⟨_ | _, v'⟩ := right
    · have has_room := both.mp (first.mp rfl)
      cases second.mpr has_room
    · exact .both rfl trivial

theorem nextManifest_redated {t : IndexState} (unnumbered : t.manifest = none)
    (rebuilt : Bool) (now later : Timestamp) : s.renewed.nextManifest t false later =
      (s.nextManifest t rebuilt now).redated later := by
  simp only [nextManifest, unnumbered, Option.getD_none, ite_self]
  rfl

section Lockstep

variable {disks : Disk → Disk → Prop} {same : σ → σ → Prop} {exclude : List String}
  {paths : String → Prop}
variable (alike : s.provider.Indistinguishable same) (keeps : options.Keeps disks)
variable (trees : ∀ d e, disks d e → s.OneTree exclude paths d e) (now : Timestamp)

include alike keeps trees

/-- Updates of the empty index on two disks with one tree go side by side. -/
theorem parallel_update_unnumbered {base : IndexState} (unnumbered : base.manifest = none)
    (rebuilt : Bool) {diff : FileDiff} (tracked : ∀ path ∈ diff.toProcess, paths path) :
    Parallel unrelated (Beside disks same) (fun _ _ => True)
      (fun x y => y = (x.1.redated now, x.2.marked false))
      (s.update outside options base rebuilt diff)
      (s.renewed.update { outside with now } options base false diff) := by
  have followed : Followed options (Beside disks same) := followed_beside keeps
  have failing (w w' : World σ) (_ : Beside disks same w w') : (unrelated : Terms σ).failed w w' :=
    trivial
  have cut (w w' : World σ) (worlds : Beside disks same w w') (path : String)
      (member : path ∈ diff.toProcess) : s.cutFile outside.parse w.disk path =
        s.renewed.cutFile { outside with now }.parse w'.disk path :=
    (trees _ _ worlds.disk).cutFile outside.parse (tracked path member)
  have plan {d d' : Draft} (drafts : d.state.manifest = none ∧ d' = d.marked false) (f : CutFile) :
      ((d.planFile base f).1.state.manifest = none ∧
        (d'.planFile base f).1 = (d.planFile base f).1.marked false) ∧
      (d.planFile base f).2 = (d'.planFile base f).2 := by
    obtain ⟨unnumbered, rfl⟩ := drafts
    rw [Draft.planFile_marked]
    exact ⟨⟨(manifest_planAll base d [f]).trans unnumbered, rfl⟩, rfl⟩
  have start : (diff.deleted.foldl Draft.forgetFile
        { state := base, report := reportOf diff rebuilt }).state.manifest = none ∧
      diff.deleted.foldl Draft.forgetFile { state := base, report := reportOf diff false } =
        (diff.deleted.foldl Draft.forgetFile
          { state := base, report := reportOf diff rebuilt }).marked false := by
    refine ⟨?_, Draft.forgetFiles_marked false diff.deleted
      { state := base, report := reportOf diff rebuilt }⟩
    rw [state_foldl_forgetFile, manifest_without, unnumbered]
  refine (parallel_planFiles_of_followed followed failing
    (fun d d' => d.state.manifest = none ∧ d' = d.marked false) cut plan start 0 _).bind ?_
  rintro ⟨draft, plans⟩ ⟨_, _⟩ ⟨⟨unnumbered, rfl⟩, rfl⟩
  refine (followed.parallel_checkCancelled failing).bind fun _ _ _ => ?_
  refine (parallel_embedQueue alike failing keeps _ _ _ _).bind ?_
  rintro embedded _ rfl
  have applying : Agree (fun d d' => d.state.manifest = none ∧ d' = d.marked false)
      (draft.applyPlans embedded plans) ((draft.marked false).applyPlans embedded plans) := by
    rw [Draft.applyPlans_marked]
    cases applied : draft.applyPlans embedded plans with
    | error e => exact .error e
    | ok e => exact .ok ⟨(Draft.applyPlans_carried applied).2.2.trans unnumbered, rfl⟩
  refine (parallel_ofExcept failing applying).bind ?_
  rintro applied _ ⟨unnumbered, rfl⟩
  refine (followed.parallel_checkCancelled failing).bind fun _ _ _ => ?_
  refine (followed.parallel_tell _).bind fun _ _ _ => ?_
  refine (parallel_writeOut failing rfl rfl
    (parallel_persist_of_room (fun d e related => (trees d e related).room) _ _ _)).bind
    fun _ _ _ => parallel_pure ?_
  have dated := nextManifest_redated (s := s) unnumbered rebuilt outside.now now
  exact congrArg (fun m => (({ applied.state with manifest := some m } : IndexState),
    withTotals (applied.report.marked false) applied.state)) dated

/-- Runs that start from the empty state on two disks with one tree go side by side. -/
theorem parallel_bringUpToDate_of_prepared {d e : Disk} {rebuilt force : Bool}
    (prepared : s.prepare d options.force = .ok (.ofDimension s.provider.dimension, rebuilt))
    (prepared_anew : s.renewed.prepare e force = .ok (.ofDimension s.provider.dimension, false))
    (excludes : exclude = s.settings.exclude ++ options.exclude) :
    Parallel unrelated (fun w w' => Beside disks same w w' ∧ w.disk = d ∧ w'.disk = e)
      (fun _ _ => True) (fun x y => y = (x.1.redated now, x.2.marked false))
      (s.bringUpToDate outside options)
      (s.renewed.bringUpToDate { outside with now } { options with force }) := by
  have followed : Followed options (Beside disks same) := followed_beside keeps
  have failing (w w' : World σ) (_ : Beside disks same w w') : (unrelated : Terms σ).failed w w' :=
    trivial
  refine parallel_get.bind ?_
  rintro w w' ⟨_, rfl, rfl⟩
  have starts : Agree
      (fun x y => x.1 = IndexState.ofDimension s.provider.dimension ∧ y = (x.1, false))
      (s.prepare w.disk options.force) (s.renewed.prepare w'.disk force) := by
    rw [prepared, prepared_anew]
    exact .ok ⟨rfl, rfl⟩
  refine ((parallel_ofExcept (fun _ _ _ => trivial) starts).imp (fun _ _ => id)
    fun _ _ worlds => worlds.1).bind ?_
  rintro ⟨_, rebuilt⟩ _ ⟨rfl, rfl⟩
  refine (followed.parallel_checkCancelled failing).bind fun _ _ _ => ?_
  refine (followed.parallel_tell _).bind fun _ _ _ => ?_
  refine parallel_get.bind fun v v' worlds => ?_
  have tree := trees _ _ worlds.disk
  have scans : Agree (fun x y => x = y ∧ ∀ path ∈ x.keys, paths path)
      (Scan.snapshot v.disk s.root (s.settings.exclude ++ options.exclude))
      (Scan.snapshot v'.disk s.root (s.settings.exclude ++ options.exclude)) := by
    rw [← excludes, ← tree.snapshot]
    cases scanned : Scan.snapshot v.disk s.root exclude with
    | error cause => exact .error cause
    | ok current => exact .ok ⟨rfl, tree.within current scanned⟩
  refine (parallel_ofExcept failing scans).bind ?_
  rintro current _ ⟨rfl, tracked⟩
  refine (followed.parallel_tell _).bind fun _ _ _ => ?_
  have unnumbered : (IndexState.ofDimension s.provider.dimension).manifest = none := rfl
  simp only [unnumbered, Option.isSome_none, Bool.and_false, Bool.false_eq_true, if_false]
  rw [update_of_force s.renewed]
  refine parallel_update_unnumbered outside options alike keeps trees now unnumbered rebuilt ?_
  intro path processed
  obtain ⟨hash, found, _⟩ := (Snapshot.mem_toProcess _ _ path).mp processed
  exact tracked path ((SortedMap.mem_keys_iff current path).mpr (by rw [found]; rfl))

/-- What the runs report and what they leave in memory. -/
theorem index_of_prepared {w w' : World σ} {rebuilt force : Bool} (tree : disks w.disk w'.disk)
    (provider : same w.provider w'.provider)
    (prepared : s.prepare w.disk options.force = .ok (.ofDimension s.provider.dimension, rebuilt))
    (prepared_anew : s.renewed.prepare w'.disk force =
      .ok (.ofDimension s.provider.dimension, false))
    (excludes : exclude = s.settings.exclude ++ options.exclude) :
    (s.renewed.index { outside with now } { options with force } w').1 =
        (s.index outside options w).1.map (IndexReport.marked false) ∧
      ((s.index outside options w).1.isOk →
        (s.renewed.index { outside with now } { options with force } w').2.1.state =
          (s.index outside options w).2.1.state.redated now) := by
  have ended := parallel_bringUpToDate_of_prepared outside options alike keeps trees now prepared
    prepared_anew excludes { w with events := [], checks := 0 }
    { w' with events := [], checks := 0 } ⟨⟨tree, provider, rfl, rfl⟩, rfl, rfl⟩
  rw [index_eq_conclude, index_eq_conclude]
  generalize run (s.bringUpToDate outside options) _ = left at ended
  generalize run (s.renewed.bringUpToDate _ _) _ = right at ended
  cases ended with
  | both results _ =>
    subst results
    exact ⟨rfl, fun _ => rfl⟩
  | neither => exact ⟨rfl, fun ok => by cases ok⟩
  | alone may => exact may.elim

end Lockstep

section Outset

variable {d : Disk}

/-- What a forced run starts from. -/
theorem prepare_forced (d : Disk) :
    s.prepare d true = .ok (.ofDimension s.provider.dimension, hasManifest d s.root) := rfl

theorem prepare_of_incompatible {m : Manifest} (known : s.currentManifest d = .ok (some m))
    (other : m.version ≠ formatVersion ∨ m.model ≠ s.provider.model) :
    s.prepare d false = .ok (.ofDimension s.provider.dimension, true) := by
  have refused : ∃ reason, m.checkCompatible s.provider.model s.provider.dimension =
      .error (.incompatibleIndex reason) := by
    rw [Manifest.checkCompatible.eq_def]
    by_cases version : m.version = formatVersion
    · have model : m.model ≠ s.provider.model := other.resolve_left fun differs => differs version
      exact ⟨_, by rw [if_neg (not_not.mpr version), if_pos model]⟩
    · exact ⟨_, if_pos version⟩
  obtain ⟨reason, refused⟩ := refused
  simp only [prepare, known, refused, bind, Except.bind, Bool.false_eq_true, if_false]
  rfl

theorem hasManifest_of_notFound (unindexed : s.contents d manifestName = .error .notFound) :
    hasManifest d s.root = false := by
  have unread : d.read (Path.join (indexFolderOf s.root) manifestName) = .error .notFound :=
    unindexed
  rw [hasManifest, Disk.isFileAt]
  rw [Disk.read] at unread
  split at unread
  next missing => rw [missing]
  next => split at unread <;> cases unread

/-- What a first run starts from. -/
theorem prepare_first (unindexed : s.contents d manifestName = .error .notFound) (force : Bool) :
    s.renewed.prepare d force = .ok (.ofDimension s.provider.dimension, false) := by
  cases force with
  | true =>
    have unwritten : hasManifest d s.renewed.root = false := hasManifest_of_notFound unindexed
    rw [prepare_forced, unwritten]
    rfl
  | false =>
    have unread : s.renewed.contents d manifestName = .error .notFound := unindexed
    have nothing : s.renewed.currentManifest d = .ok none := by
      rw [currentManifest, IndexContents.manifest, IndexContents.document, unread]
      rfl
    simp only [prepare, nothing, bind, Except.bind, Bool.false_eq_true, if_false]
    rfl

end Outset

section Writing

variable {outside options} {w w' : World σ} {s' : Session σ} {report : IndexReport}
variable {base state : IndexState} {rebuilt : Bool} {diff : FileDiff}

/-- A run that starts from a state without a manifest ends in an update of this state. -/
theorem update_of_index (h : s.index outside options w = (.ok report, s', w'))
    (prepared : s.prepare w.disk options.force = .ok (base, rebuilt))
    (unnumbered : base.manifest = none) : ∃ diff v,
      run (s.update outside options base rebuilt diff) v = (.ok (s'.state, report), w') := by
  obtain ⟨_, _, also, ended⟩ := index_ok_or_update h
  cases prepared.symm.trans also
  rcases ended with ⟨_, numbered⟩ | updates
  · rw [unnumbered] at numbered
    cases numbered
  · exact updates

variable (h : run (s.update outside options base rebuilt diff) w = (.ok (state, report), w'))

include h

/-- An update of an empty index takes over no vector. -/
theorem reused_of_update (nothing : base.catalogue = .empty) : report.chunksReused = 0 := by
  obtain ⟨cuts, draft, plans, embedded, applied, _, same, carried, _, _, rfl⟩ := update_ok h
  obtain ⟨drafted, own⟩ := Draft.reused_planAll nothing
    (diff.deleted.foldl Draft.forgetFile { state := base, report := reportOf diff rebuilt }) cuts
  rw [← same] at drafted own
  have forgotten := read_foldl (·.report.chunksReused) Draft.forgetFile (fun _ _ => rfl)
    diff.deleted { state := base, report := reportOf diff rebuilt }
  exact (Draft.reused_applyPlans carried own).trans (drafted.trans forgotten)

/-- An update that succeeds leaves the documents of its state. -/
theorem held_of_update :
    ∃ m, state.manifest = some m ∧ IndexState.Held (s.contents w'.disk) state m := by
  obtain ⟨_, _, _, _, applied, _, _, _, persisted, rfl, _⟩ := update_ok h
  have held := persist_ok persisted
  exact ⟨_, rfl, held.catalogue, held.table, held.files, held.manifest⟩

end Writing

end Session

namespace Attempt

variable {σ : Type} {a : Attempt σ}

/-- The run discards the index that there is: it is forced, or the manifest that it looks at has
another format version or another model. -/
def Rebuilds (a : Attempt σ) : Prop :=
  a.options.force ∨ ∃ m, a.session.currentManifest a.world.disk = .ok (some m) ∧
    (m.version ≠ formatVersion ∨ m.model ≠ a.session.provider.model)

/-- The same run of a new session in another world, at another time, forced or not. -/
def anew (a : Attempt σ) (w : World σ) (now : Timestamp) (force : Bool) : Attempt σ :=
  { session := a.session.renewed
    world := w
    outside := { a.outside with now }
    options := { a.options with force } }

/-- The run finds one tree on two disks, and room for the index on both or on neither. -/
def OneTree (a : Attempt σ) (paths : String → Prop) (d e : Disk) : Prop :=
  a.session.OneTree (a.session.settings.exclude ++ a.options.exclude) paths d e

theorem Rebuilds.prepare (rebuilds : a.Rebuilds) : ∃ rebuilt,
    a.session.prepare a.world.disk a.options.force =
      .ok (.ofDimension a.session.provider.dimension, rebuilt) := by
  cases forced : a.options.force with
  | true => exact ⟨_, Session.prepare_forced _⟩
  | false =>
    rcases rebuilds with force | ⟨m, known, other⟩
    · rw [forced] at force
      cases force
    · exact ⟨true, Session.prepare_of_incompatible known other⟩

/-- A run that rebuilds goes like a first run on the same tree, whatever was in the index folder and
in memory: it fails for the same cause, or it has the same report and makes the same state. The
documents of both are those of this state, so they are the same but for the dates of the manifest.
No vector was taken over. Whoever is told of progress has to leave the tree one tree. -/
theorem rebuild_like_first_run {same : σ → σ → Prop} {paths : String → Prop} {w : World σ}
    (rebuilds : a.Rebuilds) (alike : a.session.provider.Indistinguishable same)
    (provider : same a.world.provider w.provider) (tree : a.OneTree paths a.world.disk w.disk)
    (keeps : a.options.Keeps (a.OneTree paths))
    (unindexed : a.session.contents w.disk manifestName = .error .notFound) (now : Timestamp)
    (force : Bool) :
    (a.anew w now force).result = a.result.map (IndexReport.marked false) ∧
      ∀ report, a.result = .ok report → report.chunksReused = 0 ∧
        (a.anew w now force).after.session.state = a.after.session.state.redated now ∧
        ∃ m, a.after.session.state.manifest = some m ∧
          IndexState.Held (a.session.contents a.after.world.disk) a.after.session.state m ∧
          IndexState.Held (a.session.contents (a.anew w now force).after.world.disk)
            a.after.session.state (m.redated now) := by
  obtain ⟨rebuilt, prepared⟩ := rebuilds.prepare
  have prepared_anew := Session.prepare_first unindexed force
  have both : (a.anew w now force).result = a.result.map (IndexReport.marked false) ∧
      (a.result.isOk → (a.anew w now force).after.session.state =
        a.after.session.state.redated now) :=
    Session.index_of_prepared a.outside a.options alike keeps (fun _ _ => id) now tree provider
      prepared prepared_anew rfl
  obtain ⟨results, states⟩ := both
  refine ⟨results, fun report succeeded => ?_⟩
  have state := states (by rw [succeeded]; rfl)
  rw [succeeded] at results
  obtain ⟨diff, v, ran⟩ := Session.update_of_index (eq_of_result succeeded) prepared rfl
  obtain ⟨diff', v', ran_anew⟩ := Session.update_of_index (eq_of_result results) prepared_anew rfl
  obtain ⟨m, known, held⟩ := Session.held_of_update ran
  obtain ⟨n, known_anew, held_anew⟩ := Session.held_of_update ran_anew
  rw [state] at known_anew held_anew
  rw [IndexState.redated, known] at known_anew
  cases known_anew
  exact ⟨Session.reused_of_update ran rfl, state, m, known, held,
    held_anew.catalogue, held_anew.table, held_anew.files, held_anew.manifest⟩

section Sample

open Registry (foreignManifest readBack_foreignManifest)

/-- The place of the index folder in the samples. -/
def sampleIndex : Location := ["r"] ++ [indexFolder]

/-- The first run on the tree of a sample: there is no index folder. -/
def first (a : Attempt Unit) : Attempt Unit :=
  a.anew { a.world with disk := a.world.disk.removeAt sampleIndex } a.outside.now a.options.force

/-- A tree with an index of the next version, whose other documents cannot be read. -/
def outdatedSample : Attempt Unit :=
  { session := .new "/r" sampleProvider { limits := { minSize := 0 } }
    world :=
      { disk := ((({} : Disk).withFile "r/x.js" [65]).withFile "r/.simili/manifest.json"
          (documentBytes foreignManifest.toJson)).withFile "r/.simili/metadata.json" [0]
        provider := () }
    outside := sampleSurroundings
    options := {} }

theorem named_sampleIndex : Disk.Named sampleIndex := by
  intro name member
  simp only [sampleIndex, List.mem_cons, List.cons_append, List.nil_append, List.not_mem_nil,
    or_false] at member
  rcases member with rfl | rfl
  all_goals exact ⟨by decide, by decide, by decide⟩

theorem rebuilds_outdatedSample : outdatedSample.Rebuilds := by
  have there : outdatedSample.session.contents outdatedSample.world.disk manifestName =
      .ok (documentBytes foreignManifest.toJson) := by
    decide +kernel
  have known : (outdatedSample.session.contents outdatedSample.world.disk).manifest
      outdatedSample.session.folder = .ok foreignManifest :=
    IndexContents.manifest_ok.mpr ⟨_, there, readManifest_document.mpr readBack_foreignManifest⟩
  refine .inr ⟨foreignManifest, ?_, .inl (by decide)⟩
  rw [Session.currentManifest, known]
  rfl

theorem oneTree_outdatedSample : ∃ paths,
    outdatedSample.OneTree paths outdatedSample.world.disk outdatedSample.first.world.disk := by
  have sound : outdatedSample.world.disk.Sound := ⟨by decide +kernel, by decide +kernel⟩
  have first_sound : outdatedSample.first.world.disk.Sound :=
    ⟨by decide +kernel, by decide +kernel⟩
  have same : Disk.SameOutside sampleIndex outdatedSample.world.disk
      outdatedSample.first.world.disk := Disk.sameOutside_removeAt named_sampleIndex _
  have named : Disk.Named ["r"] := named_sampleIndex.of_prefix ⟨[indexFolder], rfl⟩
  have skipped : ∀ exclusions, exclusionRules? (outdatedSample.session.settings.exclude ++
      outdatedSample.options.exclude) = some exclusions →
        Scan.isSkipped outdatedSample.world.disk exclusions ["r"] [indexFolder] true := by
    have evaluated : (exclusionRules? (outdatedSample.session.settings.exclude ++
        outdatedSample.options.exclude)).all fun exclusions =>
          Scan.isSkipped outdatedSample.world.disk exclusions ["r"] [indexFolder] true := by
      decide +kernel
    intro exclusions given
    rw [given] at evaluated
    exact evaluated
  have places : outdatedSample.world.disk.locate outdatedSample.session.root = .ok ["r"] ∧
      outdatedSample.first.world.disk.locate outdatedSample.session.root = .ok ["r"] := by
    decide +kernel
  have ⟨snapshots, reads⟩ :=
    Scan.one_tree first_sound same named sound places.1 places.2 skipped
  have room : outdatedSample.world.disk.HasRoom outdatedSample.session.folder ∧
      outdatedSample.first.world.disk.HasRoom outdatedSample.session.folder := by
    decide +kernel
  refine ⟨fun path => ∃ current, Scan.snapshot outdatedSample.world.disk
    outdatedSample.session.root (outdatedSample.session.settings.exclude ++
      outdatedSample.options.exclude) = .ok current ∧ path ∈ current.keys, snapshots, ?_, ?_,
    iff_of_true room.1 room.2⟩
  · exact fun current scanned path tracked => ⟨current, scanned, tracked⟩
  · rintro path ⟨current, scanned, tracked⟩
    exact reads current scanned path tracked

/-- The index of the next version is rebuilt like a first index, although two of its documents are
missing and one cannot be read. -/
theorem outdatedSample_like_first_run :
    outdatedSample.result.isOk ∧
      outdatedSample.first.after.session.state =
        outdatedSample.after.session.state.redated ⟨0, 0⟩ := by
  have unindexed : outdatedSample.session.contents outdatedSample.first.world.disk manifestName =
      .error .notFound := by
    decide +kernel
  have first_ok : outdatedSample.first.result.isOk := by decide +kernel
  obtain ⟨paths, tree⟩ := oneTree_outdatedSample
  have still : outdatedSample.options.Still := IndexOptions.still_of_none rfl
  have ⟨results, later⟩ := rebuild_like_first_run (w := outdatedSample.first.world)
    rebuilds_outdatedSample (Provider.indistinguishable_eq _) rfl tree (still.keeps _) unindexed
    outdatedSample.outside.now outdatedSample.options.force
  cases ended : outdatedSample.result with
  | error e =>
    rw [ended] at results
    have failed : outdatedSample.first.result = .error e := results
    rw [failed] at first_ok
    cases first_ok
  | ok report => exact ⟨rfl, (later report ended).2.1⟩

/-- A sample whose provider does not know the length of its vectors beforehand. -/
def unmeasuredSample : Attempt Unit :=
  { outdatedSample with
    session := .new "/r" { sampleProvider with dimension := none } { limits := { minSize := 0 } }
    world := { disk := ({} : Disk).withFile "r/x.js" [65], provider := () } }

/-- A folder is in the place of a document. -/
def blockedSample : Attempt Unit :=
  { unmeasuredSample with
    world := { disk := ({} : Disk).withFile "r/.simili/metadata.json/x" [], provider := () }
    options := { force := true } }

/-- The next run of the session, after the file was removed, and after another version has replaced
the manifest. -/
def replacedSample : Attempt Unit :=
  { unmeasuredSample with
    session := unmeasuredSample.after.session
    world :=
      { unmeasuredSample.after.world with
        disk := (unmeasuredSample.after.world.disk.removeAt ["r", "x.js"]).withFile
          "r/.simili/manifest.json" (documentBytes foreignManifest.toJson) } }

/-- A forced run fails where a first run on the same tree succeeds, if the index folder has no room
for a document. A run that is not forced does not look at a manifest of another version if the
session has loaded an index, so it keeps the length of the vectors of that index. -/
theorem not_like_first_run :
    (blockedSample.options.force ∧ blockedSample.result = .error .io ∧
      blockedSample.first.result.isOk) ∧
    replacedSample.options.force = false ∧
      (replacedSample.session.contents replacedSample.world.disk).manifest
        replacedSample.session.folder = .ok foreignManifest ∧
      foreignManifest.version ≠ formatVersion ∧
      replacedSample.result.isOk ∧ replacedSample.first.result.isOk ∧
      replacedSample.after.session.state.table.dimension = some 1 ∧
      replacedSample.first.after.session.state.table.dimension = none := by
  have blocked : blockedSample.result = .error .io ∧ blockedSample.first.result.isOk := by
    decide +kernel
  have replaced : replacedSample.session.contents replacedSample.world.disk manifestName =
        .ok (documentBytes foreignManifest.toJson) ∧
      replacedSample.result.isOk ∧ replacedSample.first.result.isOk ∧
      replacedSample.after.session.state.table.dimension = some 1 ∧
      replacedSample.first.after.session.state.table.dimension = none := by
    decide +kernel
  obtain ⟨there, evaluated⟩ := replaced
  have known : (replacedSample.session.contents replacedSample.world.disk).manifest
      replacedSample.session.folder = .ok foreignManifest :=
    IndexContents.manifest_ok.mpr ⟨_, there, readManifest_document.mpr readBack_foreignManifest⟩
  exact ⟨⟨rfl, blocked⟩, rfl, known, by decide, evaluated⟩

end Sample

end Attempt

end Lookalike
