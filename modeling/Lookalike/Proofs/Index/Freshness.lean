import Lookalike.Proofs.Index.Interruption
import Lookalike.Proofs.Index.Places
import Lookalike.Proofs.Index.Room
import Lookalike.Proofs.Index.Soundness

/-!
# No stale vectors

A run gives no text a vector that is not its own: whatever is stale after a run was stale in the
index that the run continued. So the vectors of a history stay fresh unless a run fails in such a
way that the index it leaves behind is accepted with a stale vector. A chunk that is cut and that
the model refuses is in neither store.
-/

namespace Lookalike

open IndexState (Sound Fresh FreshUnder)

/-- The model of the provider is the one that the embedder has under its name. -/
abbrev Provider.Follows {σ : Type} (p : Provider σ) (f : Embedder) : Prop :=
  p.Answers (fun text v => f p.model text = some v) fun text => f p.model text = none

namespace IndexState

variable {f : Embedder} {model : String} {t u : IndexState} {Text : String → Prop}

theorem freshUnder_iff_pairs :
    t.FreshUnder f model ↔ ∀ text v, t.Pairs text v → f model text = some v := by
  constructor
  · rintro fresh _ v ⟨id, c, found, there, rfl⟩
    exact fresh id c v found there
  · intro each id c v found there
    exact each c.text v ⟨id, c, found, there, rfl⟩

theorem fresh_iff {m : Manifest} (known : t.manifest = some m) :
    t.Fresh f ↔ t.FreshUnder f m.model := by
  constructor
  · intro fresh
    exact fresh m known
  · intro fresh n other
    rw [known] at other
    cases other
    exact fresh

theorem fresh_ofDimension (dimension : Option Nat) : (ofDimension dimension).Fresh f := by
  intro m known
  simp [ofDimension] at known

theorem Sound.readBack (sound : t.Sound Text) (b : t.ReadBack u) : u.Sound Text where
  regular := sound.regular.readBack b
  texts := by
    intro id c found
    rw [b.catalogue.found] at found
    exact sound.texts id c found

theorem Fresh.readBack (fresh : t.Fresh f) (faithful : f.Faithful) (b : t.ReadBack u) :
    u.Fresh f := by
  obtain ⟨m, n, of_t, of_u, manifest⟩ := b.manifest
  intro n' known
  rw [of_u] at known
  cases known
  have same_model : n.model = m.model := by rw [manifest.same]
  rw [same_model]
  exact (fresh m of_t).readBack faithful b

/-- A chunk has the vector of its text, or it is in neither store because the model refuses it. -/
def Settles (f : Embedder) (model : String) (s : IndexState) (c : Chunk) : Prop :=
  match f model c.text with
  | some v => ∃ x, s.catalogue.get? c.id = some x ∧ x.text = c.text ∧ s.table.get? c.id = some v
  | none => s.catalogue.get? c.id = none ∧ s.table.get? c.id = none

end IndexState

theorem Manifest.model_of_checkCompatible {m : Manifest} {model : String} {dimension : Option Nat}
    (h : m.checkCompatible model dimension = .ok ()) : m.model = model := by
  unfold checkCompatible at h
  split at h
  next => cases h
  next =>
    split at h
    next => cases h
    next same => simpa using same

namespace Session

variable {σ : Type} {s : Session σ} {outside : Surroundings} {options : IndexOptions}
variable {base t : IndexState} {diff : FileDiff} {d : Disk} {cuts : List CutFile}
variable {embedded : Embedded} {told : IndexReport} {f : Embedder} {Text : String → Prop}

/-- A run continues an index of its own model only. -/
theorem StartsFrom.model {rebuilt : Bool} (h : s.StartsFrom d base rebuilt) {m : Manifest}
    (known : base.manifest = some m) : m.model = s.provider.model := by
  cases h with
  | nothing => cases known
  | state n _ of_state compatible =>
    rw [of_state] at known
    cases known
    exact Manifest.model_of_checkCompatible compatible
  | stored n _ of_base compatible =>
    rw [of_base] at known
    cases known
    exact Manifest.model_of_checkCompatible compatible

/-- A fresh state that a run starts from is fresh under the model of the provider. -/
theorem StartsFrom.freshUnder {rebuilt : Bool} (h : s.StartsFrom d base rebuilt)
    (fresh : base.Fresh f) : base.FreshUnder f s.provider.model := by
  cases known : base.manifest with
  | some m =>
    rw [← h.model known]
    exact fresh m known
  | none =>
    cases h with
    | nothing =>
      intro id c v found
      simp [IndexState.ofDimension] at found
    | state m _ of_state =>
      rw [of_state] at known
      cases known
    | stored m _ of_base =>
      rw [of_base] at known
      cases known

section Ran

variable (ran : Ran s outside options base diff d cuts embedded t told)
variable (apart : TextsApart Text) (sound : base.Sound Text)
variable (texts : ∀ g ∈ cuts, ∀ c ∈ g.found, Text c.text)
variable (unambiguous : ∀ g ∈ cuts, g.Unambiguous) (follows : s.provider.Follows f)

include ran apart sound texts unambiguous follows

theorem Ran.freshUnder (fresh : base.FreshUnder f s.provider.model) :
    t.FreshUnder f s.provider.model := by
  rw [IndexState.freshUnder_iff_pairs] at fresh ⊢
  intro text v pair
  rcases ran.pairs apart sound texts unambiguous follows text v pair with before | given
  · exact fresh text v before
  · exact given

/-- Every chunk that was cut is settled after a run that starts from a fresh state. -/
theorem Ran.settles (fresh : base.FreshUnder f s.provider.model) {g : CutFile} (hg : g ∈ cuts)
    {c : Chunk} (hc : c ∈ g.found) : t.Settles f s.provider.model c := by
  have after := ran.freshUnder apart sound texts unambiguous follows fresh
  by_cases lands : ((base.without diff.deleted).decision base c).lands embedded c
  · obtain ⟨x, v, found, there, same⟩ := ran.present_of_lands apart texts unambiguous hg hc lands
    have given := after c.id x v found there
    rw [same] at given
    rw [IndexState.Settles, given]
    exact ⟨x, found, same, there⟩
  · have refused : f s.provider.model c.text = none := by
      cases decided : (base.without diff.deleted).decision base c with
      | keep => simp [decided, Decision.lands] at lands
      | reuse v => simp [decided, Decision.lands] at lands
      | embed =>
        have missing : embedded.vectors.get? c.contentHash = none := by
          simpa [decided, Decision.lands] using lands
        exact ran.refused_of_embed apart texts follows hg hc decided missing
    rw [IndexState.Settles, refused]
    exact ran.absent_of_fails unambiguous hg hc lands

end Ran

end Session

section Runs

variable {σ : Type} {f : Embedder} {Text : String → Prop} {a : Attempt σ}

/-- The run may cut this file, as it is on one of the disks that others make of the first. -/
def Attempt.MayCut (a : Attempt σ) (g : CutFile) : Prop :=
  ∃ base rebuilt current, a.outset = .ok (base, rebuilt, current) ∧
    g.path ∈ (Snapshot.diff current base.files).toProcess ∧
    a.session.CutOnTheWay a.outside a.options a.world.disk g

/-- The provider follows an embedder, and hashes and identities tell contents apart. -/
structure Attempt.Steady (f : Embedder) (Text : String → Prop) (a : Attempt σ) : Prop where
  follows : a.session.provider.Follows f
  texts : ∀ g, a.MayCut g → ∀ c ∈ g.found, Text c.text
  unambiguous : ∀ g, a.MayCut g → g.Unambiguous
  reveals : a.RevealsNothing

/-- The run fails, and the index that it leaves behind is accepted with a stale vector. -/
def Attempt.Tears (f : Embedder) (a : Attempt σ) : Prop :=
  (∃ e, a.result = .error e) ∧ ∃ s, a.after.stored = .ok s ∧ a.toSite.stored ≠ .ok s ∧ ¬s.Fresh f

theorem Session.Ran.mayCut {base t : IndexState} {rebuilt : Bool} {current : Snapshot}
    {cuts : List CutFile} {embedded : Embedded} {told : IndexReport}
    (ran : a.session.Ran a.outside a.options base (Snapshot.diff current base.files)
      a.world.disk cuts embedded t told) (start : a.outset = .ok (base, rebuilt, current))
    {g : CutFile} (hg : g ∈ cuts) : a.MayCut g := by
  refine ⟨base, rebuilt, current, start, ?_, ran.cut g hg⟩
  rw [← ran.paths]
  exact List.mem_map_of_mem hg

theorem Attempt.Steady.landsOnly (steady : a.Steady f Text) : a.LandsOnly Text := by
  intro base rebuilt current cuts embedded t told start _ ran g hg c hc _
  exact steady.texts g (ran.mayCut start hg) c hc

/-- A successful run of a steady provider from a sound state. -/
theorem Attempt.Steady.outcome (steady : a.Steady f Text) (apart : TextsApart Text)
    {base state : IndexState} {rebuilt : Bool} {current : Snapshot} {report : IndexReport}
    {w' : World σ} (start : a.outset = .ok (base, rebuilt, current)) (sound : base.Sound Text)
    (outcome : a.session.Outcome a.outside a.options a.world base rebuilt current state report w') :
    (∃ m, state.manifest = some m ∧ m.model = a.session.provider.model) ∧
      (∀ text v, state.Pairs text v →
        base.Pairs text v ∨ f a.session.provider.model text = some v) ∧
      (∀ x ∈ report.failedChunks,
        state.catalogue.get? x.id = none ∧ state.table.get? x.id = none) ∧
      (base.FreshUnder f a.session.provider.model → ∃ cuts : List CutFile,
        cuts.map (·.path) = (Snapshot.diff current base.files).toProcess ∧
        ∀ g ∈ cuts, a.session.CutOnTheWay a.outside a.options a.world.disk g ∧
          ∀ c ∈ g.found, state.Settles f a.session.provider.model c) := by
  cases outcome with
  | unchanged nothing continued indexed same counted _ =>
    subst same
    obtain ⟨_, no_cuts⟩ := FileDiff.empty_of_unchanged nothing
    obtain ⟨m, known⟩ := Option.isSome_iff_exists.mp indexed
    refine ⟨⟨m, known, (Session.outset_ok start).1.model known⟩, fun text v pair => .inl pair, ?_,
      fun _ => ⟨[], no_cuts.symm, by simp⟩⟩
    intro x failed
    rw [counted] at failed
    cases failed
  | updated cuts embedded t told v _ ran _ _ shape counted =>
    have ran := ran sound.regular
    have texts (g : CutFile) (hg : g ∈ cuts) := steady.texts g (ran.mayCut start hg)
    have unambiguous (g : CutFile) (hg : g ∈ cuts) := steady.unambiguous g (ran.mayCut start hg)
    subst shape
    have pairs := ran.pairs apart sound texts unambiguous steady.follows
    refine ⟨⟨_, rfl, rfl⟩, pairs, ?_, fun fresh => ?_⟩
    · intro x failed
      rw [counted] at failed
      have failed : x ∈ told.failedChunks := failed
      rw [ran.failed] at failed
      obtain ⟨⟨c, decision⟩, waits, rfl⟩ := List.mem_map.mp failed
      obtain ⟨planned, fails⟩ := List.mem_filter.mp waits
      obtain ⟨g, hg, x, hc, same⟩ := IndexState.mem_planned.mp planned
      cases same
      exact ran.absent_of_fails unambiguous hg hc (by simpa using fails)
    · exact ⟨cuts, ran.paths, fun g hg => ⟨ran.cut g hg, fun c hc =>
        ran.settles apart sound texts unambiguous steady.follows fresh hg hc⟩⟩

/-- A successful run keeps fresh what it starts from. -/
theorem Attempt.Steady.fresh (steady : a.Steady f Text) (apart : TextsApart Text)
    {base state : IndexState} {rebuilt : Bool} {current : Snapshot} {report : IndexReport}
    {w' : World σ} (start : a.outset = .ok (base, rebuilt, current)) (sound : base.Sound Text)
    (fresh : base.Fresh f)
    (outcome : a.session.Outcome a.outside a.options a.world base rebuilt current state report w') :
    state.Fresh f := by
  obtain ⟨⟨m, known, model⟩, pairs, _⟩ := steady.outcome apart start sound outcome
  have of_base := IndexState.freshUnder_iff_pairs.mp ((Session.outset_ok start).1.freshUnder fresh)
  rw [IndexState.fresh_iff known, model, IndexState.freshUnder_iff_pairs]
  intro text v pair
  exact (pairs text v pair).elim (of_base text v) id

/-- Where no run tears, every state is fresh. -/
theorem invariant_fresh (faithful : f.Faithful) (apart : TextsApart Text) :
    Invariant (fun a : Attempt σ => (a.Steady f Text ∧ ¬a.Tears f) ∧ a.toSite.Sound Text ∧
      a.after.Sound Text) fun s => s.Sound Text ∧ s.Fresh f where
  nothing := fun dimension =>
    ⟨IndexState.sound_ofDimension Text dimension, IndexState.fresh_ofDimension dimension⟩
  wellFormed := fun t good => good.1.regular.wellFormed
  readBack := fun t u good b => ⟨good.1.readBack b, good.2.readBack faithful b⟩
  succeeded := by
    rintro a base rebuilt current state report w' ⟨⟨steady, _⟩, _⟩ good start outcome
    exact ⟨outcome.sound steady.landsOnly start good.1,
      steady.fresh apart start good.1 good.2 outcome⟩
  failed := by
    rintro a e ⟨⟨_, whole⟩, _, sound⟩ failed s read
    by_cases before : a.toSite.stored = .ok s
    · exact .inl before
    · refine .inr ⟨(Site.Sound.kept sound).stored s read, ?_⟩
      exact Classical.byContradiction fun stale => whole ⟨⟨e, failed⟩, s, read, before, stale⟩

/-- A state after a run that succeeds is fresh if and only if no stale vector of the index that the
run continues survives, and a chunk that is reported as failed is in neither store. There was no
stale vector to begin with if no earlier run has torn the index, and then each chunk that was cut
has the vector of its text or is in neither store. -/
theorem Attempt.fresh_iff_none_survives (faithful : f.Faithful) (apart : TextsApart Text)
    (h : History (Attempt.Steady f Text) a.toSite) (steady : a.Steady f Text) {report : IndexReport}
    (succeeds : a.result = .ok report) :
    ∃ base rebuilt current, a.outset = .ok (base, rebuilt, current) ∧
      (a.after.session.state.Fresh f ↔ ∀ text v, base.Pairs text v →
        a.after.session.state.Pairs text v → f a.session.provider.model text = some v) ∧
      (¬a.Writes → a.after.session.state = base) ∧
      (∀ x ∈ report.failedChunks, a.after.session.state.catalogue.get? x.id = none ∧
        a.after.session.state.table.get? x.id = none) ∧
      (History (fun b => b.Steady f Text ∧ ¬b.Tears f) a.toSite →
        a.after.session.state.Fresh f ∧ ∃ cuts : List CutFile,
          cuts.map (·.path) = (Snapshot.diff current base.files).toProcess ∧
          ∀ g ∈ cuts, a.session.CutOnTheWay a.outside a.options a.world.disk g ∧
            ∀ c ∈ g.found, a.after.session.state.Settles f a.session.provider.model c) := by
  obtain ⟨state, base, rebuilt, current, same, start, outcome⟩ :=
    Session.index_ok (eq_of_result succeeds)
  have start : a.outset = .ok (base, rebuilt, current) := start
  have sound := h.sound (fun b steady => steady.landsOnly) fun b steady => steady.reveals
  have base_sound := Site.Sound.base sound (Session.outset_ok start).1
  obtain ⟨⟨m, known, model⟩, pairs, failed, settled⟩ :=
    steady.outcome apart start base_sound outcome
  rw [same]
  refine ⟨base, rebuilt, current, start, ?_, fun writes => ?_, failed, fun whole => ?_⟩
  · show state.Fresh f ↔ _
    rw [IndexState.fresh_iff known, model, IndexState.freshUnder_iff_pairs]
    constructor
    · intro fresh text v _ pair
      exact fresh text v pair
    · intro none_survives text v pair
      rcases pairs text v pair with before | given
      · exact none_survives text v before pair
      · exact given
  · cases outcome with
    | unchanged _ _ _ same_state => exact same_state
    | updated _ _ _ _ _ changed => exact absurd ⟨base, rebuilt, current, start, changed⟩ writes
  · have known_whole := whole.knowing fun x before =>
      (before.sound (fun b steady => steady.1.landsOnly) fun b steady => steady.1.reveals)
    have base_good := (invariant_fresh faithful apart).base known_whole (Session.outset_ok start).1
    exact ⟨steady.fresh apart start base_sound base_good.2 outcome,
      settled ((Session.outset_ok start).1.freshUnder base_good.2)⟩

end Runs

section Sample

/-- A model that takes one text. -/
def refusingEmbedder : Embedder := fun _ text => if text = "A" then some #[1] else none

def refusingProvider : Provider Unit :=
  { name := "sample", model := "sample", dimension := none
    answer := fun _ texts p =>
      if texts.all (· = "A") then (.ok (texts.map fun _ => #[1]), p)
      else (.error (.malformed "refused"), p) }

/-- One function, in texts of one letter. -/
def letterTree : SyntaxTree :=
  .node "program" true none 0 1 [.node "function_declaration" true none 0 1 []]

def letterSurroundings : Surroundings :=
  { now := ⟨0, 0⟩
    parse := fun _ source => if source = "A" ∨ source = "B" then some letterTree else none }

/-- The first run over a tree of two files, which are both taken. -/
def takenSample : Attempt Unit :=
  { session := .new "/r" refusingProvider { limits := { minSize := 0 } }
    world := { disk := (({} : Disk).withFile "r/x.js" [65]).withFile "r/y.js" [65], provider := () }
    outside := letterSurroundings
    options := {} }

/-- The disk after one of the files was changed. -/
def changedSample (d : Disk) : Disk := { d with files := d.files.insert "r/y.js" [66] }

/-- The next run, which the model refuses the changed file. -/
def refusingSample : Attempt Unit :=
  { takenSample with
    session := takenSample.after.session
    world := { takenSample.after.world with disk := changedSample takenSample.after.world.disk } }

theorem follows_refusingProvider : refusingProvider.Follows refusingEmbedder where
  batch := by
    intro texts vectors _ _ answered _ x member
    simp only [Provider.embedBatch, refusingProvider] at answered
    split at answered
    next all =>
      cases answered
      have first := (List.of_mem_zip member).1
      have second := (List.of_mem_zip member).2
      simp only [List.all_eq_true, decide_eq_true_eq] at all
      rw [refusingEmbedder, if_pos (all x.1 first)]
      simp only [List.mem_map] at second
      obtain ⟨_, _, same⟩ := second
      rw [same]
    next => cases answered
  single := by
    intro text v _ _ answered
    by_cases taken : text = "A"
    · subst taken
      simp [Provider.embed, Provider.embedBatch, refusingProvider, Provider.single] at answered
      rw [refusingEmbedder, if_pos rfl, answered]
    · simp [Provider.embed, Provider.embedBatch, refusingProvider, Provider.single,
        taken] at answered
  refused := by
    intro text cause _ _ answered _
    by_cases taken : text = "A"
    · subst taken
      simp [Provider.embed, Provider.embedBatch, refusingProvider, Provider.single] at answered
    · rw [refusingEmbedder, if_neg taken]

theorem faithful_refusingEmbedder : refusingEmbedder.Faithful := by
  have one : Embedding.ofJson? (Embedding.toJson #[1]) = some #[1] := by decide +kernel
  refine Embedder.faithful_of_exact fun model text v made => ?_
  rw [refusingEmbedder] at made
  split at made <;> cases made
  exact one

theorem frame_refusingSample : refusingSample.session.root = "/r" ∧
    refusingSample.session.provider = refusingProvider ∧
    refusingSample.session.settings = { limits := { minSize := 0 } } :=
  takenSample.resumed_frame _ _ _

/-- What is parsed has one chunk at most, with a letter for its text. -/
theorem found_letters (path hash : String) (bytes : List UInt8) :
    (∀ c ∈ (CutFile.mk path hash (Session.cutText letterSurroundings.parse { minSize := 0 } path
      bytes)).found, c.text = "A" ∨ c.text = "B") ∧
      (CutFile.mk path hash (Session.cutText letterSurroundings.parse { minSize := 0 } path
        bytes)).found.length ≤ 1 := by
  rcases Session.found_cutText letterSurroundings.parse { minSize := 0 } path hash bytes with
    nothing | ⟨lang, source, tree, parsed, chunks⟩
  · simp [nothing]
  have letter : (source = "A" ∨ source = "B") ∧ tree = letterTree := by
    simp only [letterSurroundings] at parsed
    split at parsed
    next letter =>
      cases parsed
      exact ⟨letter, rfl⟩
    next => cases parsed
  obtain ⟨letter, rfl⟩ := letter
  have units : (CodeUnit.withOrdinals [] (CodeUnit.units lang source letterTree)).all
      (fun x => CodeUnit.normalText source 6000 x.1.unit = source) ∧
      (CodeUnit.withOrdinals [] (CodeUnit.units lang source letterTree)).length ≤ 1 := by
    rcases letter with rfl | rfl <;> cases lang <;> decide +kernel
  rw [chunks]
  constructor
  · intro c hc
    obtain ⟨x, member, cut⟩ := List.mem_filterMap.mp hc
    have whole := List.all_eq_true.mp units.1 x member
    simp only [CodeUnit.chunk?] at cut
    split at cut
    next => cases cut
    next =>
      cases cut
      rw [of_decide_eq_true whole]
      exact letter
  · exact Nat.le_trans (List.length_filterMap_le _ _) units.2

theorem letters_of_mayCut {a : Attempt Unit} (parse : a.outside.parse = letterSurroundings.parse)
    (limits : a.session.settings.limits = { minSize := 0 }) {g : CutFile} (may : a.MayCut g) :
    (∀ c ∈ g.found, c.text = "A" ∨ c.text = "B") ∧ g.found.length ≤ 1 := by
  obtain ⟨_, _, _, _, _, d, _, same⟩ := may
  rw [same, Session.cutFile, parse, limits]
  split
  next => simp [CutFile.found]
  next bytes _ => exact found_letters g.path _ bytes

theorem fresh_start_takenSample (bytes : List UInt8) :
    IndexContents.ofDisk takenSample.world.disk (indexFolderOf "/r") manifestName ≠ .ok bytes :=
  ne_ok_of_isOk (by decide +kernel) bytes

/-- A scan of the root finds these files, which have these contents, and there is room for an index.
-/
abbrev Disk.HoldsFiles (d : Disk) (files : List (String × List UInt8)) : Prop :=
  Scan.snapshot d "/r" defaultExcludes = .ok (.ofList (files.map fun f => (f.1, Blake3.hex f.2))) ∧
    (∀ f ∈ files, d.read (Path.join "/r" f.1) = .ok f.2) ∧ d.HasRoom (indexFolderOf "/r")

/-- What comes of the two runs: the second finds the folder that the first has made. -/
theorem evaluated_refusingSample : takenSample.result.isOk ∧
    (refusingSample.world.disk.follow refusingSample.world.disk.workingFolder
        (Path.components (indexFolderOf "/r")) = .ok ["r", indexFolder] ∧
      refusingSample.world.disk.isFolder ["r", indexFolder] ∧
      refusingSample.world.disk.Sound ∧
      refusingSample.world.disk.HoldsFiles [("x.js", [65]), ("y.js", [66])]) ∧
    (refusingSample.result.toOption.any fun report =>
      report.failedChunks.map (·.filePath) = ["y.js"] ∧ report.totalFiles = 2) ∧
    refusingSample.after.session.state.table.size = 1 ∧
    refusingSample.after.session.state.files.get? "y.js" = some pendingHash ∧
    refusingSample.after.world.disk.HoldsFiles [("x.js", [65]), ("y.js", [66])] := by
  decide +kernel

theorem revealsNothing_takenSample : takenSample.RevealsNothing :=
  Attempt.revealsNothing_of_unread (IndexOptions.still_of_none rfl) (by decide +kernel)

theorem revealsNothing_refusingSample : refusingSample.RevealsNothing := by
  obtain ⟨_, ⟨leads, is_folder, _⟩, _⟩ := evaluated_refusingSample
  have folder : refusingSample.session.folder = indexFolderOf "/r" :=
    congrArg indexFolderOf frame_refusingSample.1
  exact Attempt.revealsNothing_of_folderAt (IndexOptions.still_of_none rfl)
    ⟨folder.symm ▸ leads, is_folder⟩

theorem steady_takenSample :
    takenSample.Steady refusingEmbedder fun text => text = "A" ∨ text = "B" where
  follows := follows_refusingProvider
  texts := fun _ may => (letters_of_mayCut rfl rfl may).1
  unambiguous := fun _ may =>
    (CutFile.distinct_of_length (letters_of_mayCut rfl rfl may).2).unambiguous
  reveals := revealsNothing_takenSample

theorem letters_refusingSample {g : CutFile} (may : refusingSample.MayCut g) :
    (∀ c ∈ g.found, c.text = "A" ∨ c.text = "B") ∧ g.found.length ≤ 1 :=
  letters_of_mayCut rfl (by rw [frame_refusingSample.2.2]) may

theorem steady_refusingSample :
    refusingSample.Steady refusingEmbedder fun text => text = "A" ∨ text = "B" where
  follows := by
    rw [frame_refusingSample.2.1]
    exact follows_refusingProvider
  texts := fun _ may => (letters_refusingSample may).1
  unambiguous := fun _ may =>
    (CutFile.distinct_of_length (letters_refusingSample may).2).unambiguous
  reveals := revealsNothing_refusingSample

/-- The change touches no document. -/
theorem history_changedSample {allowed : Attempt Unit → Prop} {x : Site Unit}
    (before : History allowed x) (root : x.session.root = "/r") :
    History allowed ⟨x.session, { x.world with disk := changedSample x.world.disk }⟩ := by
  have file : Disk.Named ["r", "y.js"] := by
    refine (Disk.named_singleton ?_).append (Disk.named_singleton ?_) <;>
      refine ⟨?_, ?_, ?_⟩ <;> decide
  have spares := Disk.spares_of_source file (d := changedSample x.world.disk)
    (e := x.world.disk) (by decide) (by decide) rfl rfl fun k different =>
      ((SortedMap.get?_insert _ _ _ _).trans (if_neg (Ne.symm different))).symm
  refine before.world _ ?_
  rw [Session.contents, Session.contents, Session.folder, root]
  exact spares.documents ["r"] (Disk.named_singleton ⟨by decide, by decide, by decide⟩) trivial

/-- The second run comes after the first and the change. -/
theorem history_refusingSample {allowed : Attempt Unit → Prop} (first : allowed takenSample) :
    History allowed refusingSample.toSite :=
  history_changedSample
    (.run takenSample (.start "/r" refusingProvider _ _ fresh_start_takenSample) first
      ((IndexOptions.still_of_none rfl).leavesDocuments _))
    takenSample.after_frame.1

theorem textsApart_letters : TextsApart fun text => text = "A" ∨ text = "B" := by
  have different : Blake3.hexOfText "A" ≠ Blake3.hexOfText "B" := by decide +kernel
  rintro a b (rfl | rfl) (rfl | rfl) same
  · rfl
  · exact absurd same different
  · exact absurd same.symm different
  · rfl

/-- The text that is refused has no vector and no chunk any more, and the other one keeps its own.
-/
theorem fresh_refusingSample : refusingSample.after.session.state.Fresh refusingEmbedder ∧
    refusingSample.after.session.state.table.size = 1 ∧
    ∃ report, refusingSample.result = .ok report ∧
      report.failedChunks.map (·.filePath) = ["y.js"] ∧ ∀ x ∈ report.failedChunks,
        refusingSample.after.session.state.catalogue.get? x.id = none := by
  obtain ⟨taken, _, succeeds, vectors, _⟩ := evaluated_refusingSample
  obtain ⟨report, result, told⟩ := exists_of_any succeeds
  have ⟨failed, _⟩ := of_decide_eq_true told
  obtain ⟨_, _, _, _, _, _, absent, whole⟩ := Attempt.fresh_iff_none_survives
    faithful_refusingEmbedder textsApart_letters (history_refusingSample steady_takenSample)
    steady_refusingSample result
  have whole_first : ¬takenSample.Tears refusingEmbedder := by
    rintro ⟨⟨e, stopped⟩, _⟩
    rw [stopped] at taken
    cases taken
  have start := whole (history_refusingSample ⟨steady_takenSample, whole_first⟩)
  exact ⟨start.1, vectors, report, result, failed, fun x member => (absent x member).1⟩

end Sample

end Lookalike
