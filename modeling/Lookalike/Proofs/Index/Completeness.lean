import Lookalike.Proofs.Index.Freshness
import Lookalike.Proofs.Index.UpToDate

/-!
# An index is the one from scratch

With one way of cutting files and a provider that embeds a text always or never, an index that runs
have kept says of a tree what an index from scratch says of it. A run makes it so at the paths that
it takes out or cuts. At the others it relies on the index that it continues: on the hash that is
recorded for a file being that of the content to which the chunks of the file belong. Runs that
succeed keep it so, and a run that fails does unless it leaves an index behind that is accepted
although a hash belongs to other chunks.
-/

namespace Lookalike

open IndexState (Sound UpToDate)

/-- Different contents have different hashes. -/
def ContentsApart (Bytes : List UInt8 → Prop) : Prop :=
  ∀ a b, Bytes a → Bytes b → Blake3.hex a = Blake3.hex b → a = b

section Tied

variable {k : Cutter} {Embeds : String → Prop} {Bytes : List UInt8 → Prop}
variable {s t : IndexState} {content : Option (List UInt8)}

/-- Each path is pending, or the index is up to date with some content, or with there being none. -/
def IndexState.Tied (k : Cutter) (Embeds : String → Prop) (Bytes : List UInt8 → Prop)
    (s : IndexState) : Prop :=
  ∀ path, s.files.get? path = some pendingHash ∨
    ∃ content, (∀ bytes, content = some bytes → Bytes bytes) ∧ s.UpToDate k Embeds path content

namespace IndexState

theorem tied_ofDimension (dimension : Option Nat) :
    Tied k Embeds Bytes (.ofDimension dimension) := by
  intro path
  refine .inr ⟨none, by simp, fun id c _ => ?_, fun hash => ?_⟩
  · simp [ofDimension]
  · simp [ofDimension]

theorem Tied.readBack (tied : t.Tied k Embeds Bytes) (b : t.ReadBack s) :
    s.Tied k Embeds Bytes := by
  intro path
  rcases tied path with pending | ⟨content, known, h⟩
  · rw [b.files]
    exact .inl pending
  · exact .inr ⟨content, known, (b.sameAt path).upToDate_iff.mpr h⟩

/-- A tied index is up to date with a content whose hash it records. -/
theorem Tied.upToDate (tied : s.Tied k Embeds Bytes) (apart : ContentsApart Bytes) {path : String}
    (known : ∀ bytes, content = some bytes → Bytes bytes)
    (recorded : s.files.get? path = content.map Blake3.hex) :
    s.UpToDate k Embeds path content := by
  rcases tied path with pending | ⟨other, other_known, h⟩
  · rw [recorded] at pending
    obtain ⟨bytes, _, mark⟩ := Option.map_eq_some_iff.mp pending
    exact absurd mark (hex_ne_empty bytes)
  · suffices same : other = content from same ▸ h
    cases content with
    | none =>
      have nothing := h.isSome_files
      rw [recorded] at nothing
      simpa using nothing.symm
    | some bytes =>
      obtain ⟨old, there, records⟩ := (h.files (Blake3.hex bytes)).mp recorded
      rcases records with ⟨_, same⟩ | ⟨_, mark⟩
      · rw [there, apart bytes old (known bytes rfl) (other_known old there) same]
      · exact absurd mark (hex_ne_empty bytes)

end IndexState

end Tied

namespace Attempt

variable {σ : Type} {a : Attempt σ}

/-- The files of the tree that a run finds, with their contents. -/
def tree (a : Attempt σ) (path : String) : Option (List UInt8) :=
  match Scan.snapshot a.world.disk a.session.root
    (a.session.settings.exclude ++ a.options.exclude) with
  | .ok current =>
    if current.contains path then
      (a.world.disk.read (Path.join a.session.root path)).toOption
    else none
  | .error _ => none

theorem read_of_tree {path : String} {bytes : List UInt8} (h : a.tree path = some bytes) :
    a.world.disk.read (Path.join a.session.root path) = .ok bytes := by
  rw [tree] at h
  split at h
  next =>
    split at h
    next =>
      cases there : a.world.disk.read (Path.join a.session.root path) with
      | error => simp [there, Except.toOption] at h
      | ok content =>
        rw [there] at h
        cases h
        rfl
    next => cases h
  next => cases h

/-- A snapshot has the hashes of the tree. -/
theorem get?_snapshot (sound : a.world.disk.Sound) {current : Snapshot}
    (scanned : Scan.snapshot a.world.disk a.session.root
      (a.session.settings.exclude ++ a.options.exclude) = .ok current) (path : String) :
    current.get? path = (a.tree path).map Blake3.hex := by
  rw [tree, scanned]
  dsimp only
  rw [SortedMap.contains_eq_isSome_get?]
  cases found : current.get? path with
  | none => rfl
  | some hash =>
    obtain ⟨bytes, there, same⟩ := Scan.snapshot_read sound scanned found
    rw [there, same]
    rfl

/-- A content that a run may find at a path of its snapshot. -/
def MayRead (a : Attempt σ) (path : String) (bytes : List UInt8) : Prop :=
  ∃ base rebuilt current d, a.outset = .ok (base, rebuilt, current) ∧ (current.get? path).isSome ∧
    a.options.Reaches a.world.disk d ∧ d.read (Path.join a.session.root path) = .ok bytes

/-- The run cuts files in one way, its provider embeds a text always or never, and hashes and
identities tell contents apart. -/
structure Settled (k : Cutter) (Embeds Text : String → Prop) (Bytes : List UInt8 → Prop)
    (a : Attempt σ) : Prop where
  parse : a.outside.parse = k.parse
  limits : a.session.settings.limits = k.limits
  answers : a.session.provider.Answers (fun text _ => Embeds text) fun text => ¬Embeds text
  contents : ∀ path bytes, a.MayRead path bytes → Bytes bytes
  texts : ∀ path bytes, a.MayRead path bytes → ∀ c ∈ (k.cut path bytes).found, Text c.text
  distinct : ∀ path bytes, a.MayRead path bytes → (k.cut path bytes).Distinct
  reveals : a.RevealsNothing

variable {k : Cutter} {Embeds Text : String → Prop} {Bytes : List UInt8 → Prop}
variable (settled : a.Settled k Embeds Text Bytes)
variable {base state t : IndexState} {rebuilt : Bool} {current : Snapshot} {cuts : List CutFile}
variable {embedded : Embedded} {told report : IndexReport} {w' : World σ}
variable (start : a.outset = .ok (base, rebuilt, current))

include settled in
theorem Settled.cutFile_of_read {d : Disk} {path : String} {bytes : List UInt8}
    (read : d.read (Path.join a.session.root path) = .ok bytes) :
    a.session.cutFile a.outside.parse d path = k.cut path bytes := by
  rw [Session.cutFile, read, settled.parse, settled.limits]
  rfl

section Cuts

variable (ran : a.session.Ran a.outside a.options base (Snapshot.diff current base.files)
  a.world.disk cuts embedded t told)

include settled start ran

/-- A file is cut as it may be read, or it cannot be read and waits for the next run. -/
theorem Settled.cut_or {f : CutFile} (hf : f ∈ cuts) : f.hash = pendingHash ∧ f.found = [] ∨
    ∃ bytes, a.MayRead f.path bytes ∧ f = k.cut f.path bytes := by
  have processed := (ran.cut_iff f.path).mp ⟨f, hf, rfl⟩
  obtain ⟨hash, found, _⟩ := (Snapshot.mem_toProcess current base.files f.path).mp processed
  obtain ⟨d, reached, shape⟩ := ran.cut f hf
  cases read : d.read (Path.join a.session.root f.path) with
  | error =>
    rw [Session.cutFile, read] at shape
    rw [shape]
    exact .inl ⟨rfl, rfl⟩
  | ok bytes =>
    refine .inr ⟨bytes, ⟨base, rebuilt, current, d, start, by rw [found]; rfl, reached, read⟩, ?_⟩
    exact shape.trans (settled.cutFile_of_read read)

theorem Settled.of_cuts : (∀ f ∈ cuts, ∀ c ∈ f.found, Text c.text) ∧ ∀ f ∈ cuts, f.Distinct := by
  constructor
  · intro f hf c hc
    rcases settled.cut_or start ran hf with ⟨_, nothing⟩ | ⟨bytes, may, shape⟩
    · simp [nothing] at hc
    · rw [shape] at hc
      exact settled.texts f.path bytes may c hc
  · intro f hf
    rcases settled.cut_or start ran hf with ⟨_, nothing⟩ | ⟨bytes, may, shape⟩
    · intro c hc
      simp [nothing] at hc
    · rw [shape]
      exact settled.distinct f.path bytes may

variable (apart : TextsApart Text) (sound : base.Sound fun text => Text text ∧ Embeds text)

include apart sound

/-- A file that is cut is up to date with what was read. -/
theorem Settled.upToDate_of_cut {f : CutFile} (hf : f ∈ cuts) {bytes : List UInt8}
    (shape : f = k.cut f.path bytes) : t.UpToDate k Embeds f.path (some bytes) := by
  obtain ⟨texts, distinct⟩ := settled.of_cuts start ran
  exact ran.upToDate_of_cut distinct hf shape fun c hc =>
    ran.lands_iff_embeds apart sound texts settled.answers hf hc

theorem Settled.tied_of_ran (tied : base.Tied k Embeds Bytes) : t.Tied k Embeds Bytes := by
  intro path
  by_cases deleted : path ∈ (Snapshot.diff current base.files).deleted
  · exact .inr ⟨none, by simp, ran.upToDate_of_deleted deleted⟩
  by_cases processed : path ∈ (Snapshot.diff current base.files).toProcess
  · obtain ⟨f, hf, rfl⟩ := (ran.cut_iff path).mpr processed
    rcases settled.cut_or start ran hf with ⟨mark, _⟩ | ⟨bytes, may, shape⟩
    · exact .inl (ran.pending_of_hash hf mark)
    · refine .inr ⟨some bytes, fun _ same => ?_,
        settled.upToDate_of_cut start ran apart sound hf shape⟩
      cases same
      exact settled.contents f.path bytes may
  · have same := ran.sameAt deleted processed
    rcases tied path with pending | ⟨content, known, h⟩
    · exact .inl (same.files.trans pending)
    · exact .inr ⟨content, known, same.upToDate_iff.mpr h⟩

end Cuts

include settled in
theorem Settled.landsOnly (apart : TextsApart Text) :
    a.LandsOnly fun text => Text text ∧ Embeds text := by
  intro base rebuilt current cuts embedded t told start sound ran f hf c hc lands
  have texts := (settled.of_cuts start ran).1
  exact ⟨texts f hf c hc, (ran.lands_iff_embeds apart sound texts settled.answers hf hc).mp lands⟩

section Ends

variable (apart : TextsApart Text) (sound : base.Sound fun text => Text text ∧ Embeds text)
variable (outcome : a.session.Outcome a.outside a.options a.world base rebuilt current state
  report w')

include settled start apart sound outcome

theorem Settled.tied (tied : base.Tied k Embeds Bytes) : state.Tied k Embeds Bytes := by
  cases outcome with
  | unchanged _ _ _ same => exact same ▸ tied
  | updated cuts embedded t told v _ ran _ _ shape =>
    have tied := settled.tied_of_ran start (ran sound.regular) apart sound tied
    subst shape
    intro path
    exact (tied path).imp id fun ⟨content, known, h⟩ => ⟨content, known, ⟨h.catalogue, h.files⟩⟩

end Ends

section Still

variable (still : a.options.Still) (disk : a.world.disk.Sound)

include start still disk

/-- If nobody else changes the tree, the run takes its snapshot of it. -/
theorem get?_current (path : String) : current.get? path = (a.tree path).map Blake3.hex := by
  have scanned := (Session.outset_ok start).2
  rw [still 0 { phase := .scanning }] at scanned
  exact get?_snapshot disk scanned path

include settled

theorem Settled.known {path : String} {bytes : List UInt8} (there : a.tree path = some bytes) :
    Bytes bytes := by
  refine settled.contents path bytes
    ⟨base, rebuilt, current, a.world.disk, start, ?_, .start, read_of_tree there⟩
  rw [get?_current start still disk, there]
  rfl

variable (apart : TextsApart Text) (sound : base.Sound fun text => Text text ∧ Embeds text)
variable (outcome : a.session.Outcome a.outside a.options a.world base rebuilt current state
  report w')

include apart sound outcome

/-- A run brings the index up to date at the paths that it deletes or processes. -/
theorem Settled.upToDate_of_touched {path : String}
    (touched : path ∈ (Snapshot.diff current base.files).deleted ∨
      path ∈ (Snapshot.diff current base.files).toProcess) :
    state.UpToDate k Embeds path (a.tree path) := by
  cases outcome with
  | unchanged nothing =>
    obtain ⟨none_deleted, none_processed⟩ := FileDiff.empty_of_unchanged nothing
    rw [none_deleted, none_processed] at touched
    simp at touched
  | updated cuts embedded t told v _ ran _ _ shape =>
    have ran := ran sound.regular
    suffices h : t.UpToDate k Embeds path (a.tree path) by
      rw [shape]
      exact ⟨h.catalogue, h.files⟩
    rcases touched with deleted | processed
    · have gone := ((Snapshot.mem_deleted current base.files path).mp deleted).2
      rw [get?_current start still disk, Option.map_eq_none_iff] at gone
      rw [gone]
      exact ran.upToDate_of_deleted deleted
    · obtain ⟨hash, found, _⟩ := (Snapshot.mem_toProcess current base.files path).mp processed
      rw [get?_current start still disk] at found
      obtain ⟨bytes, there, _⟩ := Option.map_eq_some_iff.mp found
      obtain ⟨f, hf, rfl⟩ := (ran.cut_iff path).mpr processed
      obtain ⟨d, reached, cut⟩ := ran.cut f hf
      rw [reached.eq_of_still still] at cut
      rw [there]
      exact settled.upToDate_of_cut start ran apart sound hf
        (cut.trans (settled.cutFile_of_read (read_of_tree there)))

/-- A successful run makes the index that of the tree if and only if the one that it continues is so
at the paths that are left alone. -/
theorem Settled.upToDate_iff : (∀ path, state.UpToDate k Embeds path (a.tree path)) ↔
    ∀ path, path ∉ (Snapshot.diff current base.files).deleted →
      path ∉ (Snapshot.diff current base.files).toProcess →
      base.UpToDate k Embeds path (a.tree path) := by
  constructor
  · intro h path present uncut
    exact (outcome.sameAt sound.regular present uncut).upToDate_iff.mp (h path)
  · intro h path
    by_cases deleted : path ∈ (Snapshot.diff current base.files).deleted
    · exact settled.upToDate_of_touched start still disk apart sound outcome (.inl deleted)
    by_cases processed : path ∈ (Snapshot.diff current base.files).toProcess
    · exact settled.upToDate_of_touched start still disk apart sound outcome (.inr processed)
    have same := outcome.sameAt sound.regular deleted processed
    exact same.upToDate_iff.mpr (h path deleted processed)

end Still

/-- The run fails, and the index that it leaves behind is accepted though it is not tied. -/
def Unties (k : Cutter) (Embeds : String → Prop) (Bytes : List UInt8 → Prop)
    (a : Attempt σ) : Prop :=
  (∃ e, a.result = .error e) ∧
    ∃ s, a.after.stored = .ok s ∧ a.toSite.stored ≠ .ok s ∧ ¬s.Tied k Embeds Bytes

end Attempt

section Histories

variable {σ : Type} {k : Cutter} {Embeds Text : String → Prop} {Bytes : List UInt8 → Prop}

/-- Where no run unties the index, it is tied. -/
theorem invariant_tied (apart : TextsApart Text) :
    Invariant (fun a : Attempt σ => (a.Settled k Embeds Text Bytes ∧ ¬a.Unties k Embeds Bytes) ∧
      a.toSite.Sound (fun text => Text text ∧ Embeds text) ∧
      a.after.Sound fun text => Text text ∧ Embeds text)
      fun s => s.Sound (fun text => Text text ∧ Embeds text) ∧ s.Tied k Embeds Bytes where
  nothing := fun dimension =>
    ⟨IndexState.sound_ofDimension _ dimension, IndexState.tied_ofDimension dimension⟩
  wellFormed := fun t good => good.1.regular.wellFormed
  readBack := fun t u good b => ⟨good.1.readBack b, good.2.readBack b⟩
  succeeded := by
    rintro a base rebuilt current state report w' ⟨⟨settled, _⟩, _⟩ ⟨sound, tied⟩ start outcome
    exact ⟨outcome.sound (settled.landsOnly apart) start sound,
      settled.tied start apart sound outcome tied⟩
  failed := by
    rintro a e ⟨⟨_, whole⟩, _, sound⟩ failed s read
    by_cases before : a.toSite.stored = .ok s
    · exact .inl before
    · refine .inr ⟨(Site.Sound.kept sound).stored s read, ?_⟩
      exact Classical.byContradiction fun loose => whole ⟨⟨e, failed⟩, s, read, before, loose⟩

/-- After a run that succeeds, the recorded paths are those of the tree, and the report counts them.
The index is that of the tree if and only if the index that the run continues was so at the paths
that are left alone, which is the case if no earlier run has untied the index. -/
theorem Attempt.upToDate_iff_left_alone (apart : TextsApart Text) (contents : ContentsApart Bytes)
    {a : Attempt σ} (h : History (Attempt.Settled k Embeds Text Bytes) a.toSite)
    (settled : a.Settled k Embeds Text Bytes) (still : a.options.Still) (disk : a.world.disk.Sound)
    {report : IndexReport} (succeeds : a.result = .ok report) :
    ∃ base rebuilt current, a.outset = .ok (base, rebuilt, current) ∧
      (∀ path, (a.after.session.state.files.get? path).isSome ↔ (a.tree path).isSome) ∧
      report.totalFiles = report.filesAdded + report.filesModified + report.filesUnchanged ∧
      ((∀ path, a.after.session.state.UpToDate k Embeds path (a.tree path)) ↔
        ∀ path, path ∉ (Snapshot.diff current base.files).deleted →
          path ∉ (Snapshot.diff current base.files).toProcess →
          base.UpToDate k Embeds path (a.tree path)) ∧
      (History (fun b => b.Settled k Embeds Text Bytes ∧ ¬b.Unties k Embeds Bytes) a.toSite →
        ∀ path, a.after.session.state.UpToDate k Embeds path (a.tree path)) := by
  obtain ⟨state, base, rebuilt, current, same, start, outcome⟩ :=
    Session.index_ok (eq_of_result succeeds)
  have start : a.outset = .ok (base, rebuilt, current) := start
  have site_sound := h.sound (fun b settled => settled.landsOnly apart)
    fun b settled => settled.reveals
  have sound := Site.Sound.base site_sound (Session.outset_ok start).1
  have iff := settled.upToDate_iff start still disk apart sound outcome
  rw [same]
  refine ⟨base, rebuilt, current, start, fun path => ?_, outcome.totalFiles sound.regular, iff,
    fun whole => iff.mpr fun path present uncut => ?_⟩
  · rw [outcome.isSome_files sound.regular, get?_current start still disk, Option.isSome_map]
  · have known_whole := whole.knowing fun x before =>
      before.sound (fun b settled => settled.1.landsOnly apart) fun b settled => settled.1.reveals
    have tied := ((invariant_tied apart).base known_whole (Session.outset_ok start).1).2
    refine tied.upToDate contents (fun bytes there => settled.known start still disk there) ?_
    rw [Snapshot.get?_of_left_alone present uncut, get?_current start still disk]

end Histories

section Sample

def letterCutter : Cutter := ⟨letterSurroundings.parse, { minSize := 0 }⟩

theorem letter_of_mayRead {a : Attempt Unit} (still : a.options.Still)
    (root : a.session.root = "/r")
    (excluded : a.session.settings.exclude ++ a.options.exclude = defaultExcludes)
    {files : List (String × List UInt8)} (holds : a.world.disk.HoldsFiles files)
    (letters : ∀ f ∈ files, f.2 = [65] ∨ f.2 = [66]) {path : String} {bytes : List UInt8}
    (may : a.MayRead path bytes) : bytes = [65] ∨ bytes = [66] := by
  obtain ⟨base, rebuilt, current, d, start, found, reached, read⟩ := may
  have scanned := (Session.outset_ok start).2
  rw [still 0 { phase := .scanning }, root, excluded] at scanned
  rw [reached.eq_of_still still, root] at read
  cases holds.1.symm.trans scanned
  obtain ⟨hash, found⟩ := Option.isSome_iff_exists.mp found
  obtain ⟨f, member, same⟩ := List.mem_map.mp (SortedMap.mem_of_get?_ofList found)
  cases same
  cases (holds.2.1 f member).symm.trans read
  exact letters f member

theorem answers_refusingProvider :
    refusingProvider.Answers (fun text _ => text = "A") fun text => text ≠ "A" :=
  follows_refusingProvider.imp
    (fun text v given => by
      rw [refusingEmbedder] at given
      split at given
      next taken => exact taken
      next => cases given)
    (fun text refused taken => by simp [refusingEmbedder, taken] at refused)

theorem settled_letters {a : Attempt Unit} (parse : a.outside.parse = letterSurroundings.parse)
    (frame : a.session.root = "/r" ∧ a.session.provider = refusingProvider ∧
      a.session.settings = { limits := { minSize := 0 } })
    (options : a.options = {}) {files : List (String × List UInt8)}
    (holds : a.world.disk.HoldsFiles files) (letters : ∀ f ∈ files, f.2 = [65] ∨ f.2 = [66])
    (reveals : a.RevealsNothing) :
    a.Settled letterCutter (· = "A") (fun text => text = "A" ∨ text = "B")
      fun bytes => bytes = [65] ∨ bytes = [66] where
  parse := parse
  limits := by rw [frame.2.2]; rfl
  answers := by rw [frame.2.1]; exact answers_refusingProvider
  contents := fun path bytes may => letter_of_mayRead
    (IndexOptions.still_of_none (by rw [options])) frame.1 (by rw [frame.2.2, options]; rfl)
    holds letters may
  texts := fun path bytes _ => (found_letters path _ bytes).1
  distinct := fun path bytes _ => CutFile.distinct_of_length (found_letters path _ bytes).2
  reveals := reveals

theorem contentsApart_letters : ContentsApart fun bytes => bytes = [65] ∨ bytes = [66] := by
  have different : Blake3.hex [65] ≠ Blake3.hex [66] := by decide +kernel
  rintro a b (rfl | rfl) (rfl | rfl) same
  · rfl
  · exact absurd same different
  · exact absurd same.symm different
  · rfl

theorem holdsFiles_takenSample :
    takenSample.world.disk.HoldsFiles [("x.js", [65]), ("y.js", [65])] := by
  decide +kernel

theorem tree_refusingSample : refusingSample.tree "y.js" = some [66] := by
  obtain ⟨_, ⟨_, _, _, scanned, read, _⟩, _⟩ := evaluated_refusingSample
  obtain ⟨root, _, settings⟩ := frame_refusingSample
  have excluded : refusingSample.session.settings.exclude ++ refusingSample.options.exclude =
      defaultExcludes := by
    rw [settings]
    rfl
  have known : (SortedMap.ofList ([("x.js", [65]), ("y.js", [66])].map
      fun f => (f.1, Blake3.hex f.2))).contains "y.js" := by
    decide +kernel
  rw [Attempt.tree, root, excluded, scanned]
  dsimp only
  rw [if_pos known, read ("y.js", [66]) (by simp)]
  rfl

/-- The file that is refused is pending, and the index is that of the tree all the same. -/
theorem upToDate_refusingSample : refusingSample.tree "y.js" = some [66] ∧
    refusingSample.after.session.state.files.get? "y.js" = some pendingHash ∧
    ∃ report, refusingSample.result = .ok report ∧ report.totalFiles = 2 ∧
      ∀ path, refusingSample.after.session.state.UpToDate letterCutter (· = "A") path
        (refusingSample.tree path) := by
  obtain ⟨taken, ⟨_, _, disk, holds⟩, succeeds, _, pending, _⟩ := evaluated_refusingSample
  have settled_first := settled_letters (a := takenSample) rfl ⟨rfl, rfl, rfl⟩ rfl
    holdsFiles_takenSample (by decide) revealsNothing_takenSample
  have settled := settled_letters (a := refusingSample) rfl frame_refusingSample rfl holds
    (by decide) revealsNothing_refusingSample
  have whole_first : ¬takenSample.Unties letterCutter (· = "A")
      fun bytes => bytes = [65] ∨ bytes = [66] := by
    rintro ⟨⟨e, stopped⟩, _⟩
    rw [stopped] at taken
    cases taken
  obtain ⟨report, result, told⟩ := exists_of_any succeeds
  have ⟨_, counted⟩ := of_decide_eq_true told
  obtain ⟨_, _, _, _, _, _, _, whole⟩ :=
    Attempt.upToDate_iff_left_alone textsApart_letters contentsApart_letters
      (history_refusingSample settled_first) settled (IndexOptions.still_of_none rfl) disk result
  exact ⟨tree_refusingSample, pending, report, result, counted,
    whole (history_refusingSample ⟨settled_first, whole_first⟩)⟩

end Sample

end Lookalike
