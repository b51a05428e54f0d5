import Lookalike.Proofs.Index.Alike
import Lookalike.Proofs.Index.History

/-!
# Histories keep the stores together

The catalogue loses a deleted file by the path that its chunks name, the table by how the identities
start. The two differ for a file that is left alone and whose path starts with the path of a deleted
file and a number sign: such a run severs the file, which keeps its chunks and loses its vectors.
A run that severs a file comes to have fewer vectors than chunks, and is stopped when it would
write. So chunks and vectors have the same identities after every run that succeeds, and what was
written is accepted.
-/

namespace Lookalike

open VectorTable (startsWith)
open IndexState (Regular StartsUnder Untouched Agreeing)

section Consistency

namespace IndexState

/-- The manifest records what is in the stores. -/
structure Recorded (m : Manifest) (s : IndexState) : Prop where
  chunks : m.chunkCount = s.catalogue.size
  files : m.fileCount = s.files.size
  dimension : ∀ expected actual, m.dimension = some expected → s.table.dimension = some actual →
    expected = actual
  version : m.version = formatVersion
  created : Timestamp.parse? m.createdAt.text = some m.createdAt

/-- What every run that succeeds keeps. -/
structure Consistent (s : IndexState) : Prop where
  regular : s.Regular
  tracked : ∀ id c, s.catalogue.get? id = some c → (s.files.get? c.filePath).isSome
  recorded : ∀ m, s.manifest = some m → Recorded m s

variable {t u : IndexState} {m : Manifest}

theorem consistent_ofDimension (dimension : Option Nat) : Consistent (.ofDimension dimension) where
  regular := regular_ofDimension dimension
  tracked := by intro id c found; simp [ofDimension] at found
  recorded := by intro m known; simp [ofDimension] at known

theorem synchronised_ofDimension (dimension : Option Nat) :
    Synchronised (.ofDimension dimension) := by
  intro id
  simp [ofDimension]

theorem Consistent.readBack (k : Consistent t) (b : ReadBack t u) : Consistent u := by
  obtain ⟨m, n, of_t, of_u, manifest⟩ := b.manifest
  refine ⟨k.regular.readBack b, fun id c found => ?_, fun m' known => ?_⟩
  · rw [b.catalogue.found] at found
    rw [b.files]
    exact k.tracked id c found
  · rw [of_u] at known
    cases known
    have recorded := k.recorded m of_t
    have created := manifest.created
    rw [recorded.created] at created
    have same_created := Option.some.inj created
    have same := manifest.same
    refine ⟨?_, ?_, fun e x he hx => ?_, by rw [same]; exact recorded.version, ?_⟩
    · rw [same, b.catalogue.size]
      exact recorded.chunks
    · rw [same, b.files]
      exact recorded.files
    · rw [same] at he
      exact recorded.dimension e x he (b.table.dimension.symm.trans hx)
    · rw [← same_created]
      exact recorded.created

/-- Stores that the manifest records agree with it if they have the same identities. -/
theorem Recorded.agreeing_iff (r : Recorded m t) (w : t.catalogue.WellFormed) :
    Agreeing m t.catalogue t.table t.files ↔ t.Synchronised := by
  constructor
  · exact synchronised_of_agreeing w
  · exact fun h => h.agreeing w r.dimension r.chunks r.files

end IndexState

end Consistency

namespace Snapshot

/-- A known path is unchanged if it is neither deleted nor to be processed. -/
theorem mem_unchanged_of_known {current previous : Snapshot} {path : String}
    (known : (previous.get? path).isSome) : path ∈ (diff current previous).unchanged ↔
      path ∉ (diff current previous).deleted ∧ path ∉ (diff current previous).toProcess := by
  rw [mem_unchanged, mem_deleted, mem_toProcess]
  cases now : current.get? path with
  | none => simp [known]
  | some hash => simp

end Snapshot

section Severing

/-- The path starts with that of a deleted file and a number sign. -/
def FileDiff.Severs (diff : FileDiff) (path : String) : Prop :=
  ∃ deleted ∈ diff.deleted, startsWith (Chunk.idStart deleted) path

/-- A file with chunks is left alone, but its path starts with that of a deleted file. -/
def IndexState.SeveredBy (base : IndexState) (diff : FileDiff) : Prop :=
  ∃ id c, base.catalogue.get? id = some c ∧ c.filePath ∈ diff.unchanged ∧ diff.Severs c.filePath

/-- A state after the files that a run deletes were taken out, and before it cuts any. -/
def IndexState.afterDeletion (base : IndexState) (rebuilt : Bool) (diff : FileDiff) : IndexState :=
  (diff.deleted.foldl Draft.forgetFile
    { state := base, report := Session.reportOf diff rebuilt }).state

namespace Session.Ran

variable {σ : Type} {s : Session σ} {outside : Surroundings} {options : IndexOptions}
variable {base t : IndexState} {current : Snapshot} {d : Disk} {cuts : List CutFile}
variable {embedded : Embedded} {told : IndexReport}
variable (ran : Ran s outside options base (Snapshot.diff current base.files) d cuts
  embedded t told)

include ran

/-- The untouched chunks are those of the unchanged files. -/
theorem untouched_iff (k : base.Consistent) {id : String} {c : Chunk} :
    Untouched base (Snapshot.diff current base.files).deleted cuts id c ↔
      base.catalogue.get? id = some c ∧
        c.filePath ∈ (Snapshot.diff current base.files).unchanged := by
  constructor
  · intro h
    refine ⟨h.found, (Snapshot.mem_unchanged_of_known (k.tracked id c h.found)).mpr ⟨h.present, ?_⟩⟩
    intro cut
    obtain ⟨f, hf, same⟩ := (ran.cut_iff c.filePath).mpr cut
    exact h.uncut f hf same
  · rintro ⟨found, unchanged⟩
    have ⟨present, uncut⟩ := (Snapshot.mem_unchanged_of_known (k.tracked id c found)).mp unchanged
    exact ⟨found, present, fun f hf same => uncut ((ran.cut_iff c.filePath).mp ⟨f, hf, same⟩)⟩

omit ran in
/-- The identities of a file that is there start like those of a deleted file if its path does. -/
theorem startsUnder_iff (r : Regular base) {diff : FileDiff} {id : String} {c : Chunk}
    (found : base.catalogue.get? id = some c) (present : c.filePath ∉ diff.deleted) :
    StartsUnder diff.deleted id ↔ diff.Severs c.filePath := by
  constructor
  · rintro ⟨p, deleted, begun⟩
    rcases (Chunk.startsWith_idStart_iff (r.isIdOf found)).mp begun with rfl | begun
    · exact absurd deleted present
    · exact ⟨p, deleted, begun⟩
  · rintro ⟨p, deleted, begun⟩
    exact ⟨p, deleted, (Chunk.startsWith_idStart_iff (r.isIdOf found)).mpr (.inr begun)⟩

theorem synchronised_iff (k : base.Consistent) (together : base.Synchronised) :
    t.Synchronised ↔ ¬base.SeveredBy (Snapshot.diff current base.files) := by
  rw [ran.updated.synchronised_iff together]
  constructor
  · rintro apart ⟨id, c, found, unchanged, severs⟩
    have untouched := (ran.untouched_iff k).mpr ⟨found, unchanged⟩
    exact apart id c untouched ((startsUnder_iff k.regular found untouched.present).mpr severs)
  · intro whole id c untouched under
    have ⟨found, unchanged⟩ := (ran.untouched_iff k).mp untouched
    exact whole ⟨id, c, found, unchanged,
      (startsUnder_iff k.regular found untouched.present).mp under⟩

/-- The stores come to have different sizes exactly if a file is severed. -/
theorem severed_iff_sizes (k : base.Consistent) (together : base.Synchronised) :
    base.SeveredBy (Snapshot.diff current base.files) ↔ t.catalogue.size ≠ t.table.size := by
  rw [ne_eq, ← ran.updated.regular.synchronised_iff_sizes, ran.synchronised_iff k together,
    not_not]

/-- What becomes of the chunks of unchanged files. -/
theorem at_unchanged (k : base.Consistent) {id : String} {c : Chunk}
    (found : base.catalogue.get? id = some c)
    (unchanged : c.filePath ∈ (Snapshot.diff current base.files).unchanged) :
    t.catalogue.get? id = some c ∧
      ((Snapshot.diff current base.files).Severs c.filePath → t.table.get? id = none) ∧
      (¬(Snapshot.diff current base.files).Severs c.filePath →
        t.table.get? id = base.table.get? id) := by
  have untouched := (ran.untouched_iff k).mpr ⟨found, unchanged⟩
  rw [← startsUnder_iff k.regular found untouched.present]
  exact ran.updated.at_untouched untouched

theorem tracked (k : base.Consistent) {id : String} {c : Chunk}
    (found : t.catalogue.get? id = some c) : (t.files.get? c.filePath).isSome := by
  have identity := ran.updated.regular.isIdOf found
  rcases (ran.updated.isSome_catalogue id).mp (by rw [found]; rfl) with
    ⟨f, hf, x, hx, rfl, _⟩ | ⟨x, untouched⟩
  · have cut := ran.updated.genuine f hf x hx
    rw [Chunk.path_unique identity cut.identity, ran.updated.files_cut hf]
    rfl
  · rw [(ran.updated.at_untouched untouched).1] at found
    cases found
    rw [ran.updated.files_other untouched.uncut, if_neg untouched.present]
    exact k.tracked id c untouched.found

end Session.Ran

end Severing

section Runs

variable {σ : Type} {s : Session σ} {outside : Surroundings} {options : IndexOptions}
variable {base state : IndexState} {rebuilt : Bool} {current : Snapshot} {report : IndexReport}
variable {w w' : World σ}

/-- The manifest of a new state records it. -/
theorem Session.recorded_nextManifest {t : IndexState} (kept : t.manifest = base.manifest)
    (k : base.Consistent) (clock : Timestamp.parse? outside.now.text = some outside.now) :
    IndexState.Recorded (s.nextManifest t rebuilt outside.now)
      { t with manifest := some (s.nextManifest t rebuilt outside.now) } := by
  have continued : ∀ m, (if rebuilt then Manifest.new s.provider.model
      (t.table.dimension.or s.provider.dimension) outside.now else t.manifest.getD (Manifest.new
      s.provider.model (t.table.dimension.or s.provider.dimension) outside.now)) = m →
      m.version = formatVersion ∧ Timestamp.parse? m.createdAt.text = some m.createdAt := by
    rintro _ rfl
    split
    next => exact ⟨rfl, clock⟩
    next =>
      rw [kept]
      cases known : base.manifest with
      | none => exact ⟨rfl, clock⟩
      | some m => exact ⟨(k.recorded m known).version, (k.recorded m known).created⟩
  refine ⟨rfl, rfl, fun e x he hx => ?_, (continued _ rfl).1, (continued _ rfl).2⟩
  have he : t.table.dimension.or s.provider.dimension = some e := he
  have hx : t.table.dimension = some x := hx
  rw [hx, Option.some_or] at he
  exact (Option.some.inj he).symm

/-- Runs keep states consistent. -/
theorem Session.Outcome.consistent
    (outcome : Outcome s outside options w base rebuilt current state report w')
    (k : base.Consistent) (clock : Timestamp.parse? outside.now.text = some outside.now) :
    state.Consistent ∧ state.manifest.isSome := by
  cases outcome with
  | unchanged nothing _ indexed same =>
    subst same
    exact ⟨k, indexed⟩
  | updated cuts embedded t told v _ ran _ _ shape =>
    have made := ran k.regular
    have recorded : IndexState.Recorded (s.nextManifest t rebuilt outside.now)
        { t with manifest := some (s.nextManifest t rebuilt outside.now) } :=
      Session.recorded_nextManifest made.manifest k clock
    subst shape
    refine ⟨⟨?_, fun id c found => made.tracked k found, fun m known => ?_⟩, rfl⟩
    · exact made.updated.regular.withManifest _
    · cases known
      exact recorded

/-- Runs that succeed keep states synchronised, and sever no file. -/
theorem Session.Outcome.synchronised
    (outcome : Outcome s outside options w base rebuilt current state report w')
    (k : base.Consistent) (together : base.Synchronised) :
    state.Synchronised ∧ ¬base.SeveredBy (Snapshot.diff current base.files) := by
  cases outcome with
  | unchanged nothing _ _ same =>
    subst same
    refine ⟨together, ?_⟩
    rintro ⟨_, _, _, _, p, deleted, _⟩
    simp [(FileDiff.empty_of_unchanged nothing).1] at deleted
  | updated cuts embedded t told v _ ran _ _ shape _ sizes =>
    have made := ran k.regular
    subst shape
    have after : t.Synchronised := made.updated.regular.synchronised_iff_sizes.mpr sizes
    exact ⟨after, (made.synchronised_iff k together).mp after⟩

theorem Session.Outcome.at_unchanged
    (outcome : Outcome s outside options w base rebuilt current state report w')
    (k : base.Consistent) {id : String} {c : Chunk} (found : base.catalogue.get? id = some c)
    (unchanged : c.filePath ∈ (Snapshot.diff current base.files).unchanged) :
    state.catalogue.get? id = some c ∧
      ((Snapshot.diff current base.files).Severs c.filePath → state.table.get? id = none) ∧
      (¬(Snapshot.diff current base.files).Severs c.filePath →
        state.table.get? id = base.table.get? id) := by
  cases outcome with
  | unchanged nothing _ _ same =>
    subst same
    refine ⟨found, ?_, fun _ => rfl⟩
    rintro ⟨p, deleted, _⟩
    simp [(FileDiff.empty_of_unchanged nothing).1] at deleted
  | updated cuts embedded t told v _ ran _ _ shape =>
    subst shape
    exact (ran k.regular).at_unchanged k found unchanged

/-- What a run has written is accepted if and only if the stores have the same identities and all
numbers can be taken in. -/
theorem Session.Outcome.accepted_iff
    (outcome : Outcome s outside options w base rebuilt current state report w')
    (k : base.Consistent) (clock : Timestamp.parse? outside.now.text = some outside.now)
    (writes : (Snapshot.diff current base.files).hasChanges ∨ rebuilt ∨ base.manifest = none)
    {m : Manifest} (known : state.manifest = some m) :
    (∃ u, IndexState.read s.folder (s.contents w'.disk) = .ok u) ↔
      state.Synchronised ∧ m.Fits ∧ state.table.Readable := by
  have ⟨consistent, _⟩ := outcome.consistent k clock
  have recorded := consistent.recorded m known
  cases outcome with
  | unchanged nothing continued indexed =>
    rw [Session.writes_iff, nothing, continued, indexed] at writes
    cases writes
  | updated _ _ t _ _ _ _ _ written shape =>
    subst shape
    cases known
    have held := Session.persist_ok written
    have well : t.catalogue.WellFormed := consistent.regular.wellFormed
    have agreeing := recorded.agreeing_iff well
    rw [IndexState.isOk_read_iff held well consistent.regular.uniform]
    constructor
    · rintro ⟨⟨n, manifest⟩, readable, agree⟩
      exact ⟨agreeing.mp agree, manifest.fits, readable⟩
    · rintro ⟨together, fits, readable⟩
      exact ⟨⟨_, fits, recorded.created, clock, rfl⟩, readable, agreeing.mpr together⟩

end Runs

namespace Attempt

variable {σ : Type} {a : Attempt σ}

/-- The run deletes a file and leaves another alone whose path starts with that of the first. -/
def Severs (a : Attempt σ) : Prop :=
  ∃ base rebuilt current, a.outset = .ok (base, rebuilt, current) ∧
    base.SeveredBy (Snapshot.diff current base.files)

theorem severs_iff {base : IndexState} {rebuilt : Bool} {current : Snapshot}
    (start : a.outset = .ok (base, rebuilt, current)) :
    a.Severs ↔ base.SeveredBy (Snapshot.diff current base.files) := by
  constructor
  · rintro ⟨_, _, _, start', severed⟩
    cases start.symm.trans start'
    exact severed
  · exact fun severed => ⟨base, rebuilt, current, start, severed⟩

/-- The run succeeds, at a time that can be written down. -/
structure Whole (a : Attempt σ) : Prop where
  succeeds : ∃ report, a.result = .ok report
  clock : Timestamp.parse? a.outside.now.text = some a.outside.now

theorem invariant_whole (σ : Type) :
    Invariant (Whole (σ := σ)) fun s => s.Consistent ∧ s.Synchronised where
  nothing := fun dimension =>
    ⟨IndexState.consistent_ofDimension dimension, IndexState.synchronised_ofDimension dimension⟩
  wellFormed := fun t good => good.1.regular.wellFormed
  readBack := fun t u good b => ⟨good.1.readBack b, good.2.readBack b⟩
  succeeded := by
    intro a base rebuilt current state report w' whole good start outcome
    exact ⟨(outcome.consistent good.1 whole.clock).1, (outcome.synchronised good.1 good.2).1⟩
  failed := by
    intro a e whole failed
    obtain ⟨report, succeeds⟩ := whole.succeeds
    rw [failed] at succeeds
    cases succeeds

section First

variable (unloaded : a.session.loaded = false) (fresh : ∀ s, a.toSite.stored ≠ .ok s)

include unloaded fresh

/-- A first run starts from an empty index. -/
theorem base_of_unindexed {base : IndexState} {rebuilt : Bool} {current : Snapshot}
    (start : a.outset = .ok (base, rebuilt, current)) :
    base = .ofDimension a.session.provider.dimension := by
  cases (Session.outset_ok start).1 with
  | nothing => rfl
  | state m loaded =>
    rw [unloaded] at loaded
    cases loaded
  | stored m _ _ _ read => exact absurd read (fresh _)

end First

/-- What a run has written is read back if the stores have the same identities, the numbers of the
manifest can be taken in, and vectors and times are read as what they are. -/
theorem readBack_of_exact {report : IndexReport} {base : IndexState} {rebuilt : Bool}
    {current : Snapshot} (succeeds : a.result = .ok report)
    (start : a.outset = .ok (base, rebuilt, current))
    (writes : (Snapshot.diff current base.files).hasChanges ∨ rebuilt ∨ base.manifest = none)
    (k : base.Consistent)
    (clock : Timestamp.parse? a.outside.now.text = some a.outside.now)
    (together : a.after.session.state.Synchronised)
    (fits : ∀ m, a.after.session.state.manifest = some m → m.Fits)
    (dimension : ∀ n, a.after.session.state.table.dimension = some n → n < Number.longBound)
    (exact_vectors : ∀ id v, a.after.session.state.table.get? id = some v →
      Embedding.ofJson? v.toJson = some v) :
    ∃ u, a.after.stored = .ok u ∧ a.after.session.state.Alike u := by
  obtain ⟨state, base', rebuilt', current', same, start', outcome⟩ :=
    Session.index_ok (eq_of_result succeeds)
  have start := start'.symm.trans start
  cases start
  have after : a.after.session.state = state := by rw [same]
  have folder : a.after.stored =
      IndexState.read a.session.folder (a.session.contents a.after.world.disk) := by
    rw [Site.stored, same]
    rfl
  rw [after] at together fits dimension exact_vectors ⊢
  rw [folder]
  obtain ⟨consistent, indexed⟩ := outcome.consistent k clock
  obtain ⟨m, known⟩ := Option.isSome_iff_exists.mp indexed
  obtain ⟨u, read⟩ := (outcome.accepted_iff k clock writes known).mpr ⟨together, fits m known,
    dimension, fun id v there => by rw [exact_vectors id v there]; rfl⟩
  refine ⟨u, read, ?_⟩
  cases outcome with
  | unchanged nothing continued indexed =>
    rw [Session.writes_iff, nothing, continued, indexed] at writes
    cases writes
  | updated _ _ t _ _ _ _ _ written shape =>
    subst shape
    cases known
    obtain ⟨back, _, _⟩ := IndexState.readBack_of_read (Session.persist_ok written)
      consistent.regular.wellFormed read
    refine back.alike (fun m known => ?_) exact_vectors
    cases known
    exact ⟨(consistent.recorded _ rfl).created, clock⟩

/-- What a first run has written is read back if the numbers of the manifest can be taken in, and
vectors and times are read as what they are. -/
theorem readBack_of_unindexed (unloaded : a.session.loaded = false)
    (fresh : ∀ s, a.toSite.stored ≠ .ok s) {report : IndexReport} (succeeds : a.result = .ok report)
    (clock : Timestamp.parse? a.outside.now.text = some a.outside.now)
    (fits : ∀ m, a.after.session.state.manifest = some m → m.Fits)
    (dimension : ∀ n, a.after.session.state.table.dimension = some n → n < Number.longBound)
    (exact_vectors : ∀ id v, a.after.session.state.table.get? id = some v →
      Embedding.ofJson? v.toJson = some v) :
    ∃ u, a.after.stored = .ok u ∧ a.after.session.state.Alike u := by
  obtain ⟨state, base, rebuilt, current, same, start, outcome⟩ :=
    Session.index_ok (eq_of_result succeeds)
  obtain rfl := base_of_unindexed unloaded fresh start
  have k := IndexState.consistent_ofDimension a.session.provider.dimension
  have together : a.after.session.state.Synchronised := by
    rw [same]
    exact (outcome.synchronised k (IndexState.synchronised_ofDimension _)).1
  exact readBack_of_exact succeeds start (.inr (.inr rfl)) k clock together fits dimension
    exact_vectors

/-- A run that gets to writing is stopped there exactly if it severs a file. -/
theorem stopped_iff_severs (h : History Whole a.toSite)
    (writing : ∃ p ∈ a.after.world.events, p.phase = .persisting) :
    a.result = .error .panicked ↔ a.Severs := by
  obtain ⟨p, told, writing⟩ := writing
  have base_whole {base : IndexState} {rebuilt : Bool} {current : Snapshot}
      (start : a.outset = .ok (base, rebuilt, current)) : base.Consistent ∧ base.Synchronised :=
    (invariant_whole σ).base h (Session.outset_ok start).1
  cases ended : a.result with
  | error e =>
    obtain ⟨_, at_end⟩ := Session.index_error (eq_of_result ended)
    cases at_end with
    | way _ untold => exact absurd writing (untold p told)
    | stopped _ _ _ _ _ _ _ start ran _ cause sizes =>
      subst cause
      have ⟨consistent, together⟩ := base_whole start
      refine iff_of_true rfl ((severs_iff start).mpr ?_)
      exact ((ran consistent.regular).severed_iff_sizes consistent together).mpr sizes
    | writing _ _ _ _ _ _ _ _ start ran _ failed sizes =>
      have ⟨consistent, together⟩ := base_whole start
      refine iff_of_false (fun same => ?_) fun severs => ?_
      · cases same
        cases Session.persist_error failed
      · exact ((ran consistent.regular).severed_iff_sizes consistent together).mp
          ((severs_iff start).mp severs) sizes
  | ok report =>
    obtain ⟨_, _, _, _, _, start, outcome⟩ := Session.index_ok (eq_of_result ended)
    have ⟨consistent, together⟩ := base_whole start
    refine iff_of_false (by nofun) fun severs => ?_
    exact (outcome.synchronised consistent together).2 ((severs_iff start).mp severs)

/-- The chunks and the vectors of an index have the same identities after every run that succeeds:
such a run severs no file, its manifest counts right, what it wrote is accepted, and the files that
it left alone have all that they had. A run that severs a file is stopped when it would write. The
files that a run deletes are taken out before anything else, and that takes no chunk of another file
out, but all vectors of the files that are severed. -/
theorem same_identities_unless_severed (h : History Whole a.toSite)
    (clock : Timestamp.parse? a.outside.now.text = some a.outside.now) :
    (∀ report, a.result = .ok report → ¬a.Severs ∧
      (∀ id, (a.after.session.state.catalogue.get? id).isSome ↔
        (a.after.session.state.table.get? id).isSome) ∧
      (∃ m, a.after.session.state.manifest = some m ∧
        m.chunkCount = a.after.session.state.catalogue.size ∧
        m.fileCount = a.after.session.state.files.size ∧
        (a.Writes → ((∃ s, a.after.stored = .ok s) ↔
          m.Fits ∧ a.after.session.state.table.Readable))) ∧
      ∀ base rebuilt current, a.outset = .ok (base, rebuilt, current) →
        ∀ id c, base.catalogue.get? id = some c →
          c.filePath ∈ (Snapshot.diff current base.files).unchanged →
          a.after.session.state.catalogue.get? id = some c ∧
            a.after.session.state.table.get? id = base.table.get? id) ∧
      ((∃ p ∈ a.after.world.events, p.phase = .persisting) →
        (a.result = .error .panicked ↔ a.Severs)) ∧
      ∀ base rebuilt current, a.outset = .ok (base, rebuilt, current) →
        let diff := Snapshot.diff current base.files
        let left := base.afterDeletion rebuilt diff
        ∀ id c, base.catalogue.get? id = some c → c.filePath ∉ diff.deleted →
          left.catalogue.get? id = some c ∧
            (diff.Severs c.filePath → left.table.get? id = none) ∧
            (¬diff.Severs c.filePath → left.table.get? id = base.table.get? id) := by
  refine ⟨fun report succeeds => ?_, stopped_iff_severs h, fun base rebuilt current start => ?_⟩
  · obtain ⟨state, base, rebuilt, current, same, start, outcome⟩ :=
      Session.index_ok (eq_of_result succeeds)
    have start : a.outset = .ok (base, rebuilt, current) := start
    have ⟨consistent, together⟩ := (invariant_whole σ).base h (Session.outset_ok start).1
    have ⟨state_consistent, indexed⟩ := outcome.consistent consistent clock
    have ⟨state_together, unsevered⟩ := outcome.synchronised consistent together
    obtain ⟨m, known⟩ := Option.isSome_iff_exists.mp indexed
    have recorded := state_consistent.recorded m known
    rw [same, severs_iff start]
    refine ⟨unsevered, state_together, ⟨m, known, recorded.chunks, recorded.files, ?_⟩, ?_⟩
    · rintro ⟨_, _, _, start', writes⟩
      cases start.symm.trans start'
      have accepted := outcome.accepted_iff consistent clock writes known
      rw [Site.stored, same]
      exact accepted.trans ⟨And.right, fun fit => ⟨state_together, fit⟩⟩
    · intro _ _ _ start' id c found unchanged
      cases start.symm.trans start'
      have ⟨chunk, _, vector⟩ := outcome.at_unchanged consistent found unchanged
      exact ⟨chunk, vector fun severs => unsevered ⟨id, c, found, unchanged, severs⟩⟩
  · have ⟨consistent, _⟩ := (invariant_whole σ).base h (Session.outset_ok start).1
    intro diff left id c found present
    have made := IndexState.left_of_foldl consistent.regular diff.deleted
    have here : left = diff.deleted.foldl IndexState.withoutFile base :=
      Session.state_foldl_forgetFile diff.deleted _
    have under := Session.Ran.startsUnder_iff consistent.regular found present
    rw [here, made.catalogue, found, ← under]
    exact ⟨by simp [Option.filter, present], made.lost id, made.kept id⟩

section Sample

/-- A provider that gives every text the same vector. -/
def sampleProvider : Provider Unit :=
  { name := "sample", model := "sample", dimension := some 1
    answer := fun _ texts p => (.ok (texts.map fun _ => #[1]), p) }

/-- A parser that finds one function in every text. -/
def sampleSurroundings : Surroundings :=
  { now := ⟨0, 0⟩
    parse := fun _ _ => some
      (.node "program" true none 0 1 [.node "function_declaration" true none 0 1 []]) }

def firstSample : Attempt Unit :=
  { session := .new "/r" sampleProvider { limits := { minSize := 0 } }
    world :=
      { disk := (({} : Disk).withFile "r/x.js" [65]).withFile "r/x.js#y.js" [66], provider := () }
    outside := sampleSurroundings
    options := {} }

/-- The next run, after `x.js` was removed. -/
def secondSample : Attempt Unit :=
  { session := firstSample.after.session
    world :=
      { firstSample.after.world with
        disk := firstSample.after.world.disk.removeAt ["r", "x.js"] }
    outside := sampleSurroundings
    options := {} }

/-- Removing `x.js` severs `x.js#y.js`, whose chunk stays and whose vector goes. The run is stopped.
-/
theorem severs_secondSample :
    secondSample.result = .error .panicked ∧ secondSample.Severs ∧
      ∃ base rebuilt current id, secondSample.outset = .ok (base, rebuilt, current) ∧
        let left := base.afterDeletion rebuilt (Snapshot.diff current base.files)
        (base.table.get? id).isSome ∧ (left.catalogue.get? id).isSome ∧
          left.table.get? id = none := by
  have evaluated : firstSample.result.isOk ∧ secondSample.result = .error .panicked ∧
      secondSample.after.world.events.any (·.phase = .persisting) := by
    decide +kernel
  obtain ⟨first_ok, stopped, writing⟩ := evaluated
  have clock : Timestamp.parse? sampleSurroundings.now.text = some sampleSurroundings.now := by
    decide +kernel
  have fresh : (firstSample.session.contents firstSample.world.disk manifestName).isOk = false := by
    decide +kernel
  have first : History Whole firstSample.after := by
    refine .run firstSample (.start "/r" sampleProvider _ _ (ne_ok_of_isOk fresh))
      ⟨exists_of_isOk first_ok, clock⟩ ?_
    exact (IndexOptions.still_of_none rfl).leavesDocuments _
  have second : History Whole secondSample.toSite :=
    first.world _ (IndexContents.within_removeAt _ _ _)
  obtain ⟨_, stops, deletes⟩ := same_identities_unless_severed second clock
  have severs := (stops (by simpa using writing)).mp stopped
  obtain ⟨base, rebuilt, current, start, id, c, found, unchanged, severed⟩ := severs
  have together := ((invariant_whole Unit).base second (Session.outset_ok start).1).2
  have present : c.filePath ∉ (Snapshot.diff current base.files).deleted := by
    rw [Snapshot.mem_deleted]
    rintro ⟨_, absent⟩
    obtain ⟨_, there, _⟩ := (Snapshot.mem_unchanged _ _ _).mp unchanged
    cases absent.symm.trans there
  have ⟨chunk, lost, _⟩ := deletes base rebuilt current start id c found present
  refine ⟨stopped, ⟨base, rebuilt, current, start, id, c, found, unchanged, severed⟩,
    base, rebuilt, current, id, start, ?_, ?_, lost severed⟩
  · exact (together id).mp (by rw [found]; rfl)
  · rw [chunk]
    rfl

end Sample

end Attempt

end Lookalike
