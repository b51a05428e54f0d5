import Lookalike.Proofs.Index.Scan
import Lookalike.Proofs.Index.Soundness

/-!
# What an index says of a tree

An index is up to date at a path if it says of it what an index from scratch would: it has the
chunks of the file whose texts embed, and the hash of the file, or the mark of a pending file if
there are other chunks; and it has nothing at all where there is no file. A run brings the index up
to date at the paths that it takes out or cuts, and says of the others what was said before.
-/

namespace Lookalike

open IndexState (Sound Untouched)

/-- How files are cut. -/
structure Cutter where
  parse : Language → String → Option SyntaxTree
  limits : ChunkLimits

/-- A file with some content, cut. -/
def Cutter.cut (k : Cutter) (path : String) (bytes : List UInt8) : CutFile :=
  { path, hash := Blake3.hex bytes, chunks := Session.cutText k.parse k.limits path bytes }

/-- What is recorded for a file: its hash if all its texts embed, else the mark of a pending file.
-/
def CutFile.Records (Embeds : String → Prop) (f : CutFile) (hash : String) : Prop :=
  (∀ c ∈ f.found, Embeds c.text) ∧ hash = f.hash ∨
    (¬∀ c ∈ f.found, Embeds c.text) ∧ hash = pendingHash

theorem CutFile.exists_records (Embeds : String → Prop) (f : CutFile) :
    ∃ hash, f.Records Embeds hash := by
  by_cases all : ∀ c ∈ f.found, Embeds c.text
  · exact ⟨f.hash, .inl ⟨all, rfl⟩⟩
  · exact ⟨pendingHash, .inr ⟨all, rfl⟩⟩

namespace IndexState

variable {s t : IndexState} {path : String} {content : Option (List UInt8)}
variable {k : Cutter} {Embeds : String → Prop}

/-- What the index says of a path is what there is to say of the content that lies there. -/
structure UpToDate (k : Cutter) (Embeds : String → Prop) (s : IndexState) (path : String)
    (content : Option (List UInt8)) : Prop where
  catalogue : ∀ id c, c.filePath = path → (s.catalogue.get? id = some c ↔
    ∃ bytes, content = some bytes ∧ c ∈ (k.cut path bytes).found ∧ c.id = id ∧ Embeds c.text)
  files : ∀ hash, s.files.get? path = some hash ↔
    ∃ bytes, content = some bytes ∧ (k.cut path bytes).Records Embeds hash

/-- If the chunks land whose texts embed, a file is recorded as it should be. -/
theorem recorded_planOf_iff {embedded : Embedded} {base : IndexState} {f : CutFile} {hash : String}
    (lands : ∀ c ∈ f.found, (s.decision base c).lands embedded c ↔ Embeds c.text) :
    (s.planOf base f).recorded embedded = hash ↔ f.Records Embeds hash := by
  have all : ((s.planOf base f).chunks.all fun x => x.2.lands embedded x.1) ↔
      ∀ c ∈ f.found, Embeds c.text := by
    simp only [planOf, List.all_map, List.all_eq_true, Function.comp]
    exact forall₂_congr lands
  rw [FilePlan.recorded, CutFile.Records, ← all]
  split
  next complete =>
    simp only [complete, true_and, not_true_eq_false, false_and, or_false]
    exact eq_comm
  next incomplete =>
    simp only [incomplete, false_and, not_false_eq_true, true_and, false_or, Bool.false_eq_true]
    exact eq_comm

/-- Two states say the same of a path. -/
structure SameAt (s t : IndexState) (path : String) : Prop where
  catalogue : ∀ id c, c.filePath = path →
    (s.catalogue.get? id = some c ↔ t.catalogue.get? id = some c)
  files : s.files.get? path = t.files.get? path

theorem SameAt.upToDate_iff (same : s.SameAt t path) :
    s.UpToDate k Embeds path content ↔ t.UpToDate k Embeds path content := by
  constructor
  · intro h
    refine ⟨fun id c own => ?_, fun hash => ?_⟩
    · rw [← same.catalogue id c own]
      exact h.catalogue id c own
    · rw [← same.files]
      exact h.files hash
  · intro h
    refine ⟨fun id c own => ?_, fun hash => ?_⟩
    · rw [same.catalogue id c own]
      exact h.catalogue id c own
    · rw [same.files]
      exact h.files hash

/-- However two states came about, they say the same if both are up to date. -/
theorem UpToDate.sameAt (h : s.UpToDate k Embeds path content)
    (other : t.UpToDate k Embeds path content) : s.SameAt t path where
  catalogue := fun id c own => (h.catalogue id c own).trans (other.catalogue id c own).symm
  files := Option.ext fun hash => (h.files hash).trans (other.files hash).symm

theorem ReadBack.sameAt (b : t.ReadBack s) (path : String) : s.SameAt t path where
  catalogue := fun id c _ => by rw [b.catalogue.found]
  files := by rw [b.files]

/-- The paths with a file are those that are recorded. -/
theorem UpToDate.isSome_files (h : s.UpToDate k Embeds path content) :
    (s.files.get? path).isSome ↔ content.isSome := by
  simp only [Option.isSome_iff_exists, h.files]
  constructor
  · rintro ⟨_, bytes, there, _⟩
    exact ⟨bytes, there⟩
  · rintro ⟨bytes, there⟩
    obtain ⟨hash, records⟩ := (k.cut path bytes).exists_records Embeds
    exact ⟨hash, bytes, there, records⟩

end IndexState

namespace Session.Ran

variable {σ : Type} {s : Session σ} {outside : Surroundings} {options : IndexOptions}
variable {base t : IndexState} {diff : FileDiff} {d : Disk} {cuts : List CutFile}
variable {embedded : Embedded} {told : IndexReport} {path : String}
variable {k : Cutter} {Embeds Text : String → Prop}
variable (ran : Ran s outside options base diff d cuts embedded t told)

include ran

theorem path_mem_of_found {f : CutFile} (hf : f ∈ cuts) {c : Chunk} (hc : c ∈ f.found) :
    c.filePath = f.path ∧ c.filePath ∈ diff.toProcess := by
  have path := (ran.updated.genuine f hf c hc).path
  exact ⟨path, (ran.cut_iff _).mp ⟨f, hf, path.symm⟩⟩

/-- If the provider embeds a text always or never, the chunks that land are those whose texts
embed. -/
theorem lands_iff_embeds (apart : TextsApart Text)
    (sound : base.Sound fun text => Text text ∧ Embeds text)
    (texts : ∀ f ∈ cuts, ∀ c ∈ f.found, Text c.text)
    (answers : s.provider.Answers (fun text _ => Embeds text) fun text => ¬Embeds text)
    {f : CutFile} (hf : f ∈ cuts) {c : Chunk} (hc : c ∈ f.found) :
    ((base.without diff.deleted).decision base c).lands embedded c ↔ Embeds c.text := by
  have of_pair {v : Embedding} (pair : base.Pairs c.text v) : Embeds c.text := by
    obtain ⟨id, x, found, _, same⟩ := pair
    exact same ▸ (sound.texts id x found).2
  have all_texts : base.Sound Text := ⟨sound.regular, fun id x found => (sound.texts id x found).1⟩
  cases decided : (base.without diff.deleted).decision base c with
  | keep =>
    obtain ⟨v, _, pair⟩ := ran.kept_pair apart all_texts texts hf hc decided
    exact iff_of_true rfl (of_pair pair)
  | reuse v => exact iff_of_true rfl (of_pair (ran.reused_pair apart all_texts texts hf hc decided))
  | embed =>
    cases given : embedded.vectors.get? c.contentHash with
    | some v =>
      refine iff_of_true ?_ (ran.suits_of_embedded apart texts answers hf hc given)
      simp [Decision.lands, given]
    | none =>
      refine iff_of_false ?_ (ran.refused_of_embed apart texts answers hf hc decided given)
      simp [Decision.lands, given]

/-- What is said of a path that is neither deleted nor processed stays. -/
theorem sameAt (present : path ∉ diff.deleted) (uncut : path ∉ diff.toProcess) :
    t.SameAt base path where
  catalogue := by
    rintro id c rfl
    constructor
    · intro found
      rcases ran.updated.found found with ⟨f, hf, hc, _⟩ | untouched
      · exact absurd (ran.path_mem_of_found hf hc).2 uncut
      · exact untouched.found
    · intro found
      have untouched : Untouched base diff.deleted cuts id c :=
        ⟨found, present, fun f hf same => uncut ((ran.cut_iff _).mp ⟨f, hf, same⟩)⟩
      exact (ran.updated.at_untouched untouched).1
  files := by
    rw [ran.updated.files_other fun f hf same => uncut ((ran.cut_iff path).mp ⟨f, hf, same⟩),
      if_neg present]

/-- Nothing is left of a file that is deleted. -/
theorem upToDate_of_deleted (deleted : path ∈ diff.deleted) : t.UpToDate k Embeds path none where
  catalogue := by
    rintro id c rfl
    refine ⟨fun found => ?_, by rintro ⟨_, nothing, _⟩; cases nothing⟩
    rcases ran.updated.found found with ⟨f, hf, hc, _⟩ | untouched
    · have present := ran.updated.present f hf
      rw [← (ran.path_mem_of_found hf hc).1] at present
      exact absurd deleted present
    · exact absurd deleted untouched.present
  files := by
    intro hash
    rw [ran.updated.files_other fun f hf same => ran.updated.present f hf (same ▸ deleted),
      if_pos deleted]
    simp

/-- If the chunks land whose texts embed, a file that is cut is up to date. -/
theorem upToDate_of_cut (apart : ∀ f ∈ cuts, f.Distinct) {f : CutFile} (hf : f ∈ cuts)
    {bytes : List UInt8} (shape : f = k.cut f.path bytes)
    (lands : ∀ c ∈ f.found, ((base.without diff.deleted).decision base c).lands embedded c ↔
      Embeds c.text) : t.UpToDate k Embeds f.path (some bytes) where
  catalogue := by
    intro id c own_path
    rw [ran.updated.found_iff apart]
    constructor
    · rintro (⟨g, hg, hc, own, landed⟩ | untouched)
      · have path := (ran.path_mem_of_found hg hc).1.symm.trans own_path
        obtain rfl := IndexState.eq_of_path_eq ran.updated.distinct hg hf path
        rw [lands c hc] at landed
        exact ⟨bytes, rfl, shape ▸ hc, own, landed⟩
      · exact absurd own_path.symm (untouched.uncut f hf)
    · rintro ⟨_, same, hc, own, embeds⟩
      cases same
      rw [← shape] at hc
      exact .inl ⟨f, hf, hc, own, (lands c hc).mpr embeds⟩
  files := by
    intro hash
    rw [ran.updated.files_cut hf, Option.some.injEq, IndexState.recorded_planOf_iff lands]
    constructor
    · intro records
      exact ⟨bytes, rfl, by rwa [← shape]⟩
    · rintro ⟨_, same, records⟩
      cases same
      rwa [← shape] at records

/-- A file with the mark of a pending file is recorded as such. -/
theorem pending_of_hash {f : CutFile} (hf : f ∈ cuts) (mark : f.hash = pendingHash) :
    t.files.get? f.path = some pendingHash := by
  rw [ran.updated.files_cut hf, FilePlan.recorded]
  split
  next => exact congrArg some mark
  next => rfl

end Session.Ran

section Ends

variable {σ : Type} {s : Session σ} {outside : Surroundings} {options : IndexOptions}
variable {base state : IndexState} {rebuilt : Bool} {current : Snapshot} {report : IndexReport}
variable {w w' : World σ}
variable (outcome : s.Outcome outside options w base rebuilt current state report w')
variable (regular : base.Regular)

include outcome regular

namespace Session.Outcome

theorem sameAt {path : String} (present : path ∉ (Snapshot.diff current base.files).deleted)
    (uncut : path ∉ (Snapshot.diff current base.files).toProcess) : state.SameAt base path := by
  cases outcome with
  | unchanged _ _ _ same =>
    subst same
    exact ⟨fun _ _ _ => Iff.rfl, rfl⟩
  | updated cuts embedded t told v _ ran _ _ shape =>
    have same := (ran regular).sameAt present uncut
    subst shape
    exact ⟨same.catalogue, same.files⟩

/-- The recorded paths are those of the snapshot. -/
theorem isSome_files (path : String) :
    (state.files.get? path).isSome ↔ (current.get? path).isSome := by
  by_cases deleted : path ∈ (Snapshot.diff current base.files).deleted
  · have gone := ((Snapshot.mem_deleted current base.files path).mp deleted).2
    cases outcome with
    | unchanged nothing => simp [(FileDiff.empty_of_unchanged nothing).1] at deleted
    | updated cuts embedded t told v _ ran _ _ shape =>
      have left := (ran regular).updated.files_other fun f hf same =>
        (ran regular).updated.present f hf (same ▸ deleted)
      rw [shape, left, if_pos deleted, gone]
  by_cases processed : path ∈ (Snapshot.diff current base.files).toProcess
  · obtain ⟨hash, found, _⟩ := (Snapshot.mem_toProcess current base.files path).mp processed
    cases outcome with
    | unchanged nothing => simp [(FileDiff.empty_of_unchanged nothing).2] at processed
    | updated cuts embedded t told v _ ran _ _ shape =>
      obtain ⟨f, hf, rfl⟩ := ((ran regular).cut_iff path).mpr processed
      rw [shape, (ran regular).updated.files_cut hf, found]
      exact iff_of_true rfl rfl
  rw [(outcome.sameAt regular deleted processed).files,
    Snapshot.get?_of_left_alone deleted processed]

/-- The files that are counted as indexed are those that are added, modified or unchanged. -/
theorem totalFiles :
    report.totalFiles = report.filesAdded + report.filesModified + report.filesUnchanged := by
  have sizes := SortedMap.size_congr (outcome.isSome_files regular)
  have counted : report.totalFiles = state.files.size ∧
      report.classes = (reportOf (Snapshot.diff current base.files) false).classes := by
    cases outcome with
    | unchanged _ _ _ same counted =>
      subst same counted
      exact ⟨rfl, rfl⟩
    | updated cuts embedded t told v _ ran _ _ shape counted =>
      subst shape counted
      exact ⟨rfl, (ran regular).classes⟩
  obtain ⟨total, classes⟩ := counted
  simp only [IndexReport.classes, reportOf, List.cons.injEq] at classes
  rw [total, sizes, Snapshot.size_eq current base.files, classes.1, classes.2.1, classes.2.2.2.1]

end Session.Outcome

end Ends

end Lookalike
