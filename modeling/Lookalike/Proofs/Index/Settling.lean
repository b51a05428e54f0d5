import Lookalike.Proofs.Index.Freshness
import Lookalike.Proofs.Index.Limits
import Lookalike.Proofs.Index.Rebuild
import Lookalike.Proofs.Index.Standing

/-!
# What a run settles

After a run with a provider that answers in one way, every file that was cut is settled: its chunks
are in both stores, but for those whose texts are refused, and these are the ones that the run
reports. The other files are recorded as they are in the tree. So the files that a next run over the
same tree finds changed are those of the last one that lack a chunk, and no others.
-/

namespace Lookalike

theorem Decision.embed_of_not_lands {embedded : Embedded} {c : Chunk} {decision : Decision}
    (fails : ¬decision.lands embedded c) :
    decision = .embed ∧ embedded.vectors.get? c.contentHash = none := by
  cases decision with
  | keep => simp [lands] at fails
  | reuse v => simp [lands] at fails
  | embed => simpa [lands] using fails

/-- In an index whose stores agree, no chunk has the content of one that waits. -/
theorem IndexState.content_ne_of_embed {s base : IndexState} (synchronised : base.Synchronised)
    (wellFormed : base.catalogue.WellFormed) {c : Chunk} (waits : s.decision base c = .embed)
    {id : String} {y : Chunk} (known : base.catalogue.get? id = some y) :
    y.contentHash ≠ c.contentHash := by
  intro same
  have listed : y ∈ base.catalogue.chunks :=
    (Catalogue.mem_chunks wellFormed).mpr (wellFormed.keyed id y known ▸ known)
  have content : (base.catalogue.findContent? c.contentHash).isSome :=
    List.find?_isSome.mpr ⟨y, listed, by simp [same]⟩
  obtain ⟨x, first⟩ := Option.isSome_iff_exists.mp content
  obtain ⟨found, _⟩ := Catalogue.findContent?_eq_some wellFormed first
  obtain ⟨v, there⟩ := Option.isSome_iff_exists.mp ((synchronised x.id).mp (by rw [found]; rfl))
  simp only [decision, first, Option.bind_some, there] at waits
  split at waits <;> cases waits

namespace Session.Ran

variable {σ : Type} {s : Session σ} {outside : Surroundings} {options : IndexOptions}
variable {base t : IndexState} {diff : FileDiff} {d : Disk} {cuts : List CutFile}
variable {embedded : Embedded} {report : IndexReport} {f : String → Except EmbedError Embedding}
variable (ran : Ran s outside options base diff d cuts embedded t report)
variable (deterministic : s.provider.Deterministic f)

include ran deterministic

/-- What was embedded is what the texts give on their own, and none of them is fatal. -/
theorem embedded_eq : embedded = (base.without diff.deleted).awaited base cuts f ∧
    ¬∃ q ∈ queueOf (cuts.map ((base.without diff.deleted).planOf base)), Fatal f q.text := by
  obtain ⟨v, v', embedding⟩ := ran.embedding
  have comes : ComesTo options _ _ _ := comesTo_embedQueue deterministic s.settings.batchSize
    s.settings.concurrency outside.moves
    (nodup_queueOf (cuts.map ((base.without diff.deleted).planOf base)))
  rcases comes v with ⟨found, none⟩ | ⟨_, failed, _⟩
  · rw [embedding] at found
    exact ⟨Except.ok.inj found, none⟩
  · rw [embedding] at failed
    cases failed

variable (distinct : ∀ g ∈ cuts, g.Distinct) (texts : TextsTold cuts)

include distinct texts

/-- A chunk that was cut is in both stores afterwards, or it waited and was refused. -/
theorem has_or_refused {g : CutFile} (hg : g ∈ cuts) {c : Chunk} (hc : c ∈ g.found) :
    t.Has c ∧ ((base.without diff.deleted).decision base c).lands embedded c ∨
      t.Lacks c ∧ ¬((base.without diff.deleted).decision base c).lands embedded c ∧
        embedded.failure c = refusal f c ∧
        ∃ cause, f c.text = .error cause ∧ cause.isInputSpecific := by
  obtain ⟨same, none_fatal⟩ := ran.embedded_eq deterministic
  by_cases lands : ((base.without diff.deleted).decision base c).lands embedded c
  · refine .inl ⟨⟨(ran.updated.found_iff distinct).mpr (.inl ⟨g, hg, hc, rfl, lands⟩), ?_⟩, lands⟩
    exact (ran.updated.isSome_table c.id).mpr (.inl ⟨g, hg, c, hc, rfl, lands⟩)
  · have absent := ran.absent_of_fails (fun g hg => (distinct g hg).unambiguous) hg hc lands
    obtain ⟨waits, missing⟩ := Decision.embed_of_not_lands lands
    have ⟨missing_iff, reason⟩ := awaited_of_embed (f := f) texts hg hc waits
    rw [← same] at missing_iff reason
    obtain ⟨cause, refused⟩ := missing_iff.mp missing
    refine .inr ⟨absent, lands, reason missing, cause, refused, ?_⟩
    exact Classical.byContradiction fun other =>
      none_fatal ⟨_, mem_queue_of_embed texts hg hc waits, cause, refused, other⟩

theorem lands_iff_not_lacks {g : CutFile} (hg : g ∈ cuts) {c : Chunk} (hc : c ∈ g.found) :
    ((base.without diff.deleted).decision base c).lands embedded c ↔ ¬t.Lacks c := by
  rcases ran.has_or_refused deterministic distinct texts hg hc with
    ⟨has, lands⟩ | ⟨lacks, fails, _⟩
  · exact iff_of_true lands has.not_lacks
  · exact iff_of_false fails (not_not.mpr lacks)

/-- A file that was cut is settled afterwards. -/
theorem settled {g : CutFile} (hg : g ∈ cuts) : t.Settled f g where
  chunks := by
    intro c hc
    rcases ran.has_or_refused deterministic distinct texts hg hc with
      ⟨has, _⟩ | ⟨lacks, _, _, refused⟩
    · exact .inl has
    · exact .inr ⟨lacks, refused⟩
  only := by
    intro id c found own
    rcases ran.updated.found found with ⟨g', hg', hc, _⟩ | untouched
    · have same := (ran.path_mem_of_found hg' hc).1.symm.trans own
      exact IndexState.eq_of_path_eq ran.updated.distinct hg' hg same ▸ hc
    · exact absurd own.symm (untouched.uncut g hg)
  files := by
    rw [ran.updated.files_cut hg, recorded_of_lands
      (fun g hg c hc => ran.lands_iff_not_lacks deterministic distinct texts hg hc) hg]

/-- The chunks that are reported as failed are those that the index lacks afterwards. -/
theorem failed_eq : report.failedChunks = (cuts.flatMap t.lacking).map (refusal f) := by
  rw [ran.failed]
  refine failures_of_lands
    (fun g hg c hc => ran.lands_iff_not_lacks deterministic distinct texts hg hc)
    fun g hg c hc lacks => ?_
  rcases ran.has_or_refused deterministic distinct texts hg hc with
    ⟨has, _⟩ | ⟨_, _, reason, _⟩
  · exact absurd lacks has.not_lacks
  · exact reason

/-- If the stores of the index agree that the run continues, no vector turns up for a chunk that has
failed: none of its content was known, and none was embedded. -/
theorem not_reuse_of_synchronised (synchronised : base.Synchronised) {g : CutFile} (hg : g ∈ cuts)
    {c : Chunk} (hc : c ∈ g.found) (v : Embedding) : t.decision t c ≠ .reuse v := by
  intro reuse
  rcases ran.has_or_refused deterministic distinct texts hg hc with
    ⟨has, _⟩ | ⟨_, fails, _⟩
  · rw [has.decision] at reuse
    cases reuse
  obtain ⟨waits, missing⟩ := Decision.embed_of_not_lands fails
  have unknown {id : String} {y : Chunk} (known : base.catalogue.get? id = some y) :
      y.contentHash ≠ c.contentHash :=
    IndexState.content_ne_of_embed synchronised ran.updated.regular_base.wellFormed waits known
  -- The chunk with the vector has landed in this run or was there before it, and either way the
  -- chunk that has failed would have got the same vector.
  obtain ⟨x, first, _⟩ := IndexState.reuse_known reuse
  obtain ⟨found, same⟩ := Catalogue.findContent?_eq_some ran.updated.regular.wellFormed first
  rcases ran.updated.found found with ⟨g', hg', hx, _, lands⟩ | untouched
  · cases decided : (base.without diff.deleted).decision base x with
    | keep =>
      obtain ⟨⟨old, there, also⟩, _⟩ := IndexState.keep_known decided
      rw [ran.updated.left.catalogue] at there
      exact unknown (Option.filter_eq_some_iff.mp there).1 (also.trans same)
    | reuse w =>
      obtain ⟨old, known, _⟩ := IndexState.reuse_known decided
      obtain ⟨there, also⟩ :=
        Catalogue.findContent?_eq_some ran.updated.regular_base.wellFormed known
      exact unknown there (also.trans same)
    | embed =>
      rw [decided, Decision.lands, same, missing] at lands
      cases lands
  · exact unknown untouched.found same

end Session.Ran

namespace Attempt

variable {σ : Type} {a b : Attempt σ} {f : String → Except EmbedError Embedding}
variable {paths : String → Prop}

/-- A file that the run finds, cut. -/
def cut (a : Attempt σ) (path : String) : CutFile :=
  a.session.cutFile a.outside.parse a.world.disk path

theorem path_cut (a : Attempt σ) (path : String) : (a.cut path).path = path :=
  Session.path_cutFile _ _ _ _

/-- In the files that the run may cut, hashes tell texts apart, and identities chunks. -/
structure TellsApart (a : Attempt σ) : Prop where
  distinct : ∀ g, a.MayCut g → g.Distinct
  texts : ∀ g g', a.MayCut g → a.MayCut g' → ∀ c ∈ g.found, ∀ x ∈ g'.found,
    x.contentHash = c.contentHash → x.text = c.text

theorem tellsApart_of_textsApart {Text : String → Prop} (apart : TextsApart Text)
    (texts : ∀ g, a.MayCut g → ∀ c ∈ g.found, Text c.text)
    (distinct : ∀ g, a.MayCut g → g.Distinct) : a.TellsApart where
  distinct := distinct
  texts := by
    intro g g' may may' c hc x hx same
    have genuine {g : CutFile} (may : a.MayCut g) : g.Genuine := by
      obtain ⟨_, _, _, _, _, on_the_way⟩ := may
      exact Session.genuine_of_cutOnTheWay on_the_way
    rw [(genuine may c hc).content, (genuine may' x hx).content] at same
    exact apart x.text c.text (texts g' may' x hx) (texts g may c hc) same

/-- What is true of the files that a run has cut and has left alone. -/
structure Concluded (a : Attempt σ) (f : String → Except EmbedError Embedding)
    (processed : List String) (current : Snapshot) (t : IndexState) (failed : List FailedChunk) :
    Prop where
  regular : t.Regular
  settled : ∀ path ∈ processed, t.Settled f (a.cut path)
  found : ∀ path ∈ processed, (current.get? path).isSome
  others : ∀ path, path ∉ processed → t.files.get? path = current.get? path
  failed : failed = ((processed.map a.cut).flatMap t.lacking).map (refusal f)
  sorted : processed.Pairwise (· ≤ ·)
  distinct : processed.Nodup

section First

variable {base state : IndexState} {rebuilt : Bool} {current : Snapshot} {report : IndexReport}
variable {w' : World σ}
variable (start : a.outset = .ok (base, rebuilt, current))
variable (tree : ∀ d, a.options.Reaches a.world.disk d → a.OneTree paths a.world.disk d)

include start tree

/-- The snapshot of a run is that of the tree which it finds throughout. -/
theorem scanned_of_tree : Scan.snapshot a.world.disk a.session.root
    (a.session.settings.exclude ++ a.options.exclude) = .ok current := by
  rw [(tree _ (.event 0 { phase := .scanning } .start)).snapshot]
  exact (Session.outset_ok start).2

theorem tracked_of_processed {path : String}
    (processed : path ∈ (Snapshot.diff current base.files).toProcess) : paths path := by
  obtain ⟨hash, found, _⟩ := (Snapshot.mem_toProcess current base.files path).mp processed
  refine (tree _ .start).within current (scanned_of_tree start tree) path ?_
  exact (SortedMap.mem_keys_iff current path).mpr (by rw [found]; rfl)

/-- The files that the run cuts are those of the tree. -/
theorem cuts_eq {cuts : List CutFile} {embedded : Embedded} {t : IndexState} {told : IndexReport}
    (ran : a.session.Ran a.outside a.options base (Snapshot.diff current base.files) a.world.disk
      cuts embedded t told) :
    cuts = (Snapshot.diff current base.files).toProcess.map a.cut := by
  rw [← ran.paths, List.map_map]
  refine (List.map_id cuts).symm.trans (List.map_congr_left fun g hg => ?_)
  obtain ⟨d, reached, shape⟩ := ran.cut g hg
  have processed := (ran.cut_iff g.path).mp ⟨g, hg, rfl⟩
  have same := (tree d reached).cutFile a.outside.parse (tracked_of_processed start tree processed)
  exact shape.trans same.symm

omit tree in
theorem mayCut_cut {path : String}
    (processed : path ∈ (Snapshot.diff current base.files).toProcess) : a.MayCut (a.cut path) := by
  refine ⟨base, rebuilt, current, start, ?_, a.world.disk, .start, ?_⟩
  · rw [path_cut]
    exact processed
  · rw [path_cut]
    rfl

section Outcome

variable (outcome :
  a.session.Outcome a.outside a.options a.world base rebuilt current state report w')
variable (regular : base.Regular)

include outcome regular

omit start tree in
/-- What the run has not cut is recorded as it was scanned. -/
theorem recorded_of_uncut {path : String}
    (uncut : path ∉ (Snapshot.diff current base.files).toProcess) :
    state.files.get? path = current.get? path := by
  by_cases deleted : path ∈ (Snapshot.diff current base.files).deleted
  · have gone := ((Snapshot.mem_deleted current base.files path).mp deleted).2
    have recorded := outcome.isSome_files regular path
    rw [gone] at recorded ⊢
    simpa using recorded
  · rw [(outcome.sameAt regular deleted uncut).files, Snapshot.get?_of_left_alone deleted uncut]

/-- What the run has cut is settled, and its failures are the chunks that the provider refuses. -/
theorem settled_of_outcome (deterministic : a.session.provider.Deterministic f)
    (apart : a.TellsApart) :
    (∀ path ∈ (Snapshot.diff current base.files).toProcess, state.Settled f (a.cut path)) ∧
      report.failedChunks =
        (((Snapshot.diff current base.files).toProcess.map a.cut).flatMap state.lacking).map
          (refusal f) := by
  cases outcome with
  | unchanged nothing _ _ _ counted =>
    obtain ⟨_, no_cuts⟩ := FileDiff.empty_of_unchanged nothing
    rw [no_cuts, counted]
    exact ⟨fun _ absent => absurd absent List.not_mem_nil, rfl⟩
  | updated cuts embedded t told v _ ran _ _ made counted =>
    have ran := ran regular
    have cuts_eq := cuts_eq start tree ran
    have distinct (g : CutFile) (hg : g ∈ cuts) := apart.distinct g (ran.mayCut start hg)
    have texts : TextsTold cuts := fun g hg g' hg' =>
      apart.texts g g' (ran.mayCut start hg) (ran.mayCut start hg')
    rw [← cuts_eq, made, counted]
    refine ⟨fun path processed => ?_, ran.failed_eq deterministic distinct texts⟩
    have is_cut : a.cut path ∈ cuts := by
      rw [cuts_eq]
      exact List.mem_map_of_mem processed
    have settled := ran.settled deterministic distinct texts is_cut
    exact ⟨settled.chunks, settled.only, settled.files⟩

/-- How a run that succeeds concludes. -/
theorem concluded (deterministic : a.session.provider.Deterministic f) (apart : a.TellsApart) :
    a.Concluded f (Snapshot.diff current base.files).toProcess current state
      report.failedChunks where
  regular := outcome.regular regular
  settled := (settled_of_outcome start tree outcome regular deterministic apart).1
  found := by
    intro path processed
    obtain ⟨hash, there, _⟩ := (Snapshot.mem_toProcess current base.files path).mp processed
    rw [there]
    rfl
  others := fun _ => recorded_of_uncut outcome regular
  failed := (settled_of_outcome start tree outcome regular deterministic apart).2
  sorted := Snapshot.sorted_toProcess current base.files
  distinct := Snapshot.nodup_toProcess current base.files

end Outcome

end First

section Second

variable {processed : List String} {current : Snapshot} {t : IndexState} {failed : List FailedChunk}

namespace Concluded

variable (ended : a.Concluded f processed current t failed)

include ended

/-- Nothing is deleted between the end of a run and the next one. -/
theorem none_deleted : (Snapshot.diff current t.files).deleted = [] := by
  refine List.eq_nil_iff_forall_not_mem.mpr fun path deleted => ?_
  obtain ⟨recorded, gone⟩ := (Snapshot.mem_deleted current t.files path).mp deleted
  by_cases is_cut : path ∈ processed
  · have found := ended.found path is_cut
    rw [gone] at found
    cases found
  · rw [ended.others path is_cut, gone] at recorded
    cases recorded

/-- What is processed again are the files that were processed and are not recorded as they are. -/
theorem toProcess_eq : (Snapshot.diff current t.files).toProcess =
    processed.filter fun path => t.files.get? path ≠ current.get? path := by
  have members (path : String) : path ∈ (Snapshot.diff current t.files).toProcess ↔
      path ∈ processed.filter fun path => t.files.get? path ≠ current.get? path := by
    rw [Snapshot.mem_toProcess, List.mem_filter, decide_eq_true_eq]
    constructor
    · rintro ⟨hash, there, other⟩
      rw [← there] at other
      exact ⟨Classical.byContradiction fun uncut => other (ended.others path uncut), other⟩
    · rintro ⟨is_cut, other⟩
      obtain ⟨hash, there⟩ := Option.isSome_iff_exists.mp (ended.found path is_cut)
      exact ⟨hash, there, there ▸ other⟩
  -- Both lists ascend and repeat nothing, so they are equal if they have the same members.
  exact List.Perm.eq_of_pairwise (fun _ _ _ _ => String.le_antisymm)
    (Snapshot.sorted_toProcess current t.files) (ended.sorted.filter _)
    ((List.perm_ext_iff_of_nodup (Snapshot.nodup_toProcess current t.files)
      (ended.distinct.filter _)).mpr members)

/-- If no chunk has failed and each file was read as it was scanned, nothing is left to do. -/
theorem unchanged_of_complete (none_failed : failed = [])
    (read : ∀ path ∈ processed, current.get? path = some (a.cut path).hash) :
    (Snapshot.diff current t.files).toProcess = [] := by
  rw [ended.toProcess_eq, List.filter_eq_nil_iff]
  intro path is_cut
  have complete : t.lacking (a.cut path) = [] := by
    have nothing := ended.failed
    rw [none_failed, eq_comm, List.map_eq_nil_iff, List.flatMap_eq_nil_iff] at nothing
    exact nothing _ (List.mem_map_of_mem is_cut)
  have recorded := (ended.settled path is_cut).files
  rw [if_pos complete, path_cut] at recorded
  simp [recorded, read path is_cut]

variable (hashes : ∀ path hash, current.get? path = some hash → hash ≠ pendingHash)

include hashes

/-- A file that is recorded as it is lacks no chunk. -/
theorem complete_of_recorded {path : String} (is_cut : path ∈ processed)
    (recorded : t.files.get? path = current.get? path) : t.lacking (a.cut path) = [] := by
  refine Classical.byContradiction fun incomplete => ?_
  have pending := (ended.settled path is_cut).files
  rw [if_neg incomplete, path_cut, recorded] at pending
  exact hashes path _ pending rfl

/-- The chunks that the files lack which are processed again were reported as failed. -/
theorem failed_again : failed = (((Snapshot.diff current t.files).toProcess.map a.cut).flatMap
    t.lacking).map (refusal f) := by
  rw [ended.failed, ended.toProcess_eq]
  have complete (path : String) (is_cut : path ∈ processed)
      (recorded : t.files.get? path = current.get? path) : t.lacking (a.cut path) = [] :=
    ended.complete_of_recorded hashes is_cut recorded
  clear ended
  congr 1
  induction processed with
  | nil => rfl
  | cons path rest ih =>
    have others := ih fun other member => complete other (List.mem_cons_of_mem path member)
    by_cases recorded : t.files.get? path = current.get? path
    · have nothing := complete path List.mem_cons_self recorded
      simpa [recorded, nothing] using others
    · simpa [recorded] using others

end Concluded

end Second

end Attempt

end Lookalike
