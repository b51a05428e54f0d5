import Lookalike.Proofs.Index.Asking
import Lookalike.Proofs.Index.Rerun

/-!
# New contents

A run queues the contents of the files that it cuts which no chunk had in the state that it started
from. That state is asked whole: chunks that the run has taken out of the index in the meantime
count as well, since their vectors are taken over. What is kept is looked up in the state as it has
become, but that has no chunks of its own before the queue is embedded. Each content is queued once,
and so it is asked for once at most if no batch is rejected.
-/

namespace Lookalike

open Action (run run_bind_result)

namespace IndexState

/-- The chunks of a state are chunks of another. -/
structure PartOf (s base : IndexState) : Prop where
  wellFormed : s.catalogue.WellFormed
  found : ∀ id c, s.catalogue.get? id = some c → base.catalogue.get? id = some c

/-- No chunk of the state has the content. -/
def LacksContent (base : IndexState) (contentHash : String) : Prop :=
  ∀ x ∈ base.catalogue.chunks, x.contentHash ≠ contentHash

variable {s base : IndexState}

theorem PartOf.withoutFile (h : s.PartOf base) (path : String) :
    (s.withoutFile path).PartOf base where
  wellFormed := Catalogue.wellFormed_removeFile h.wellFormed path
  found := by
    intro id c found
    rw [IndexState.withoutFile, Catalogue.get?_removeFile h.wellFormed] at found
    exact h.found id c (Option.filter_eq_some_iff.mp found).1

theorem PartOf.without (h : s.PartOf base) (paths : List String) :
    (s.without paths).PartOf base := by
  induction paths generalizing s with
  | nil => exact h
  | cons path paths ih => exact ih (h.withoutFile path)

theorem PartOf.removeChunk (h : s.PartOf base) (gone : String) :
    (s.removeChunk gone).PartOf base where
  wellFormed := Catalogue.wellFormed_remove h.wellFormed gone
  found := by
    intro id c found
    rw [get?_catalogue_removeChunk] at found
    split at found
    next => cases found
    next => exact h.found id c found

theorem PartOf.foldl_removeChunk (h : s.PartOf base) (gone : List String) :
    (gone.foldl IndexState.removeChunk s).PartOf base :=
  List.foldlRecOn gone IndexState.removeChunk (motive := (PartOf · base)) h
    fun _ part id _ => part.removeChunk id

/-- A chunk waits for a vector of its own if and only if its content is new. -/
theorem decision_eq_embed_iff (synchronised : base.Synchronised)
    (wellFormed : base.catalogue.WellFormed) (part : s.PartOf base) (c : Chunk) :
    s.decision base c = .embed ↔ base.LacksContent c.contentHash := by
  have mem_chunks (x : Chunk) := Catalogue.mem_chunks wellFormed (x := x)
  constructor
  · intro waits x listed
    exact content_ne_of_embed synchronised wellFormed waits ((mem_chunks x).mp listed)
  · intro lacks
    cases decided : s.decision base c with
    | embed => rfl
    | keep =>
      -- The state has lost chunks of the base and gained none, so the base knows the old one.
      obtain ⟨⟨old, found, same⟩, _⟩ := keep_known decided
      have own := part.wellFormed.keyed _ _ found
      have known := part.found _ _ found
      exact absurd same (lacks old ((mem_chunks old).mpr (own.symm ▸ known)))
    | reuse v =>
      obtain ⟨x, first, _⟩ := reuse_known decided
      obtain ⟨found, same⟩ := Catalogue.findContent?_eq_some wellFormed first
      exact absurd same (lacks x ((mem_chunks x).mpr found))

end IndexState

section Queue

variable {base : IndexState} {cuts : List CutFile} {d : Draft}

/-- The queue has the contents of the files that no chunk of the state has, each once. -/
structure QueuesNew (base : IndexState) (cuts : List CutFile) (queue : List QueuedText) : Prop where
  distinct : (queue.map (·.contentHash)).Nodup
  exactly : ∀ hash, hash ∈ queue.map (·.contentHash) ↔
    (∃ f ∈ cuts, ∃ c ∈ f.found, c.contentHash = hash) ∧ base.LacksContent hash
  texts : ∀ q ∈ queue, ∃ f ∈ cuts, ∃ c ∈ f.found, q = ⟨c.contentHash, c.text⟩

variable (synchronised : base.Synchronised) (wellFormed : base.catalogue.WellFormed)

include synchronised wellFormed

/-- The chunks that wait are those of the files whose contents are new: by induction on the files,
while the state shrinks from file to file and the base stays as it is. -/
theorem mem_plans_embed_iff (part : d.state.PartOf base) (c : Chunk) :
    (c, .embed) ∈ (d.planAll base cuts).2.flatMap (·.chunks) ↔
      (∃ f ∈ cuts, c ∈ f.found) ∧ base.LacksContent c.contentHash := by
  induction cuts generalizing d with
  | nil => simp [Draft.planAll]
  | cons f cuts ih =>
    have later : ((d.planFile base f).1.state).PartOf base := by
      rw [Draft.planFile_state]
      exact part.foldl_removeChunk _
    have own : (c, .embed) ∈ (d.planFile base f).2.chunks ↔
        c ∈ f.found ∧ base.LacksContent c.contentHash := by
      rw [Draft.planFile_plan, IndexState.planOf, List.mem_map]
      constructor
      · rintro ⟨x, cut, same⟩
        obtain ⟨rfl, waits⟩ := Prod.mk.inj same
        exact ⟨cut, (IndexState.decision_eq_embed_iff synchronised wellFormed part x).mp waits⟩
      · rintro ⟨cut, lacks⟩
        refine ⟨c, cut, Prod.ext rfl ?_⟩
        exact (IndexState.decision_eq_embed_iff synchronised wellFormed part c).mpr lacks
    show (c, .embed) ∈ ((d.planFile base f).2 ::
      (Draft.planAll base (d.planFile base f).1 cuts).2).flatMap (·.chunks) ↔ _
    rw [List.flatMap_cons, List.mem_append, own, ih later, ← or_and_right]
    simp only [List.mem_cons, or_and_right, exists_or, exists_eq_left]

theorem queuesNew_planAll (part : d.state.PartOf base) :
    QueuesNew base cuts (queueOf (d.planAll base cuts).2) where
  distinct := nodup_queueOf _
  exactly := by
    intro hash
    rw [List.mem_map]
    constructor
    · rintro ⟨q, queued, rfl⟩
      obtain ⟨c, waits, rfl⟩ := mem_queueOf queued
      obtain ⟨⟨f, hf, cut⟩, lacks⟩ :=
        (mem_plans_embed_iff synchronised wellFormed part c).mp waits
      exact ⟨⟨f, hf, c, cut, rfl⟩, lacks⟩
    · rintro ⟨⟨f, hf, c, cut, rfl⟩, lacks⟩
      exact exists_mem_queueOf
        ((mem_plans_embed_iff synchronised wellFormed part c).mpr ⟨⟨f, hf, cut⟩, lacks⟩)
  texts := by
    intro q queued
    obtain ⟨c, waits, rfl⟩ := mem_queueOf queued
    obtain ⟨⟨f, hf, cut⟩, _⟩ := (mem_plans_embed_iff synchronised wellFormed part c).mp waits
    exact ⟨f, hf, c, cut, rfl⟩

end Queue

namespace Session

variable {σ : Type} {s : Session σ} {outside : Surroundings} {options : IndexOptions}
  {base : IndexState} {rebuilt : Bool} {diff : FileDiff}

/-- Takes the deleted files out and plans those that are to be processed. -/
def planDiff (s : Session σ) (outside : Surroundings) (options : IndexOptions) (base : IndexState)
    (rebuilt : Bool) (diff : FileDiff) : Action σ (Draft × List FilePlan) :=
  s.planFiles outside options base 0 diff.toProcess.length
    (diff.deleted.foldl Draft.forgetFile { state := base, report := reportOf diff rebuilt })
    diff.toProcess

/-- Planning fails only if it is cancelled. -/
theorem planFiles_error {done total : Nat} {d : Draft} {paths : List String} {w w' : World σ}
    {e : IndexError} (h : run (s.planFiles outside options base done total d paths) w =
      (.error e, w')) : e = .cancelled := by
  induction paths generalizing done d w with
  | nil => cases h
  | cons path rest ih =>
    rcases run_bind_result h with ⟨_, stopped, same⟩ | ⟨_, w₁, _, h⟩
    · cases same
      exact checkCancelled_error stopped
    rcases run_bind_result h with ⟨_, told, _⟩ | ⟨_, w₂, _, h⟩
    · cases told
    rcases run_bind_result h with ⟨_, got, _⟩ | ⟨_, w₃, _, h⟩
    · cases got
    rcases run_bind_result h with ⟨_, failed, same⟩ | ⟨_, w₄, _, h⟩
    · cases same
      exact ih failed
    · cases h

/-- What is queued for a difference are the new contents. -/
theorem queuesNew_planDiff (synchronised : base.Synchronised)
    (wellFormed : base.catalogue.WellFormed) {draft : Draft} {plans : List FilePlan}
    {w w' : World σ}
    (planned : run (s.planDiff outside options base rebuilt diff) w = (.ok (draft, plans), w')) :
    ∃ cuts, cuts.map (·.path) = diff.toProcess ∧
      (∀ f ∈ cuts, s.CutOnTheWay outside options w.disk f) ∧
      QueuesNew base cuts (queueOf plans) := by
  obtain ⟨cuts, paths, cut, same⟩ := planFiles_ok planned
  have whole : base.PartOf base := ⟨wellFormed, fun _ _ found => found⟩
  have part : (diff.deleted.foldl Draft.forgetFile
      { state := base, report := reportOf diff rebuilt }).state.PartOf base := by
    rw [state_foldl_forgetFile]
    exact whole.without diff.deleted
  refine ⟨cuts, paths, cut, ?_⟩
  have plans_eq : plans = _ := congrArg Prod.snd same
  rw [plans_eq]
  exact queuesNew_planAll synchronised wellFormed part

/-- What a run asks, given what it plans: nothing if it is cancelled before it embeds, and else for
what it has queued. -/
theorem asked_update {p : Provider σ} {s : Session (σ × List Asked)}
    (records : s.provider = p.recording) {w w' : World (σ × List Asked)}
    {r : Except IndexError (IndexState × IndexReport)}
    (h : run (s.update outside options base rebuilt diff) w = (r, w')) :
    ∃ asked, w'.asked = w.asked ++ asked ∧
      (r = .error .cancelled ∧ asked = [] ∨ ∃ draft plans v,
        run (s.planDiff outside options base rebuilt diff) w = (.ok (draft, plans), v) ∧
        AskedFor (queueOf plans) (r = .error .cancelled) asked) := by
  rcases run_bind_result h with ⟨e, failed, same⟩ | ⟨⟨draft, plans⟩, w₁, planned, h⟩
  · have nothing := (silent_planFiles s outside base _ _ _ _).asked_eq failed
    refine ⟨[], ?_, .inl ⟨?_, rfl⟩⟩
    · rw [nothing, List.append_nil]
    · rw [same, planFiles_error failed]
  have planning := (silent_planFiles s outside base _ _ _ _).asked_eq planned
  rcases run_bind_result h with ⟨e, stopped, same⟩ | ⟨_, w₂, checked, h⟩
  · have nothing := (silent_checkCancelled.asked_eq stopped).trans planning
    refine ⟨[], ?_, .inl ⟨?_, rfl⟩⟩
    · rw [nothing, List.append_nil]
    · rw [same, checkCancelled_error stopped]
  have before : w₂.asked = w.asked :=
    (silent_checkCancelled.asked_eq checked).trans planning
  rw [records] at h
  rcases run_bind_result h with ⟨e, failed, same⟩ | ⟨embedded, w₃, embedding, h⟩
  · obtain ⟨asked, told, asked_for⟩ := asked_embedQueue failed
    refine ⟨asked, before ▸ told, .inr ⟨draft, plans, w₁, planned, asked_for.imp fun cut => ?_⟩⟩
    cases cut
    exact same
  · obtain ⟨asked, told, asked_for⟩ := asked_embedQueue embedding
    -- Nothing is asked any more after the queue was embedded, whatever becomes of the run.
    have closing := (silent_bind (silent_ofExcept _) fun _ => silent_bind silent_checkCancelled
      fun _ => silent_bind (silent_tell _) fun _ => silent_bind (silent_writeOut _ _ _) fun _ =>
      silent_pure _).asked_eq h
    refine ⟨asked, ?_, .inr ⟨draft, plans, w₁, planned, asked_for.imp fun cut => ?_⟩⟩
    · rw [closing, told, before]
    · cases cut

/-- Where nothing is to be processed, nothing is queued. -/
theorem planDiff_nothing (none_changed : diff.toProcess = []) (w : World σ) :
    ∃ draft, run (s.planDiff outside options base rebuilt diff) w = (.ok (draft, []), w) := by
  rw [planDiff, none_changed]
  exact ⟨_, rfl⟩

end Session

namespace Attempt

variable {σ : Type}

/-- The queue of the run, unless it fails before it has one. -/
def queued (a : Attempt σ) : Except IndexError (List QueuedText) := do
  let (base, rebuilt, current) ← a.outset
  let (_, plans) ← (run (a.session.planDiff a.outside a.options base rebuilt
    (Snapshot.diff current base.files)) (a.world.compared a.options current.size)).1
  return queueOf plans

theorem queued_iff {a : Attempt σ} {base : IndexState} {rebuilt : Bool} {current : Snapshot}
    (start : a.outset = .ok (base, rebuilt, current)) {queue : List QueuedText} :
    a.queued = .ok queue ↔ ∃ draft plans v,
      run (a.session.planDiff a.outside a.options base rebuilt (Snapshot.diff current base.files))
        (a.world.compared a.options current.size) = (.ok (draft, plans), v) ∧
      queueOf plans = queue := by
  rw [queued, start, bind_eq_ok]
  constructor
  · rintro ⟨_, same, h⟩
    cases same
    obtain ⟨⟨draft, plans⟩, planned, same⟩ := bind_eq_ok.mp h
    exact ⟨draft, plans, _, Prod.ext planned rfl, Except.ok.inj same⟩
  · rintro ⟨draft, plans, v, planned, rfl⟩
    exact ⟨_, rfl, bind_eq_ok.mpr ⟨(draft, plans), congrArg Prod.fst planned, rfl⟩⟩

variable {p : Provider σ} {a : Attempt (σ × List Asked)} {base : IndexState} {rebuilt : Bool}
  {current : Snapshot}

theorem asked_bringUpToDate (records : a.session.provider = p.recording)
    (start : a.outset = .ok (base, rebuilt, current)) {w' : World (σ × List Asked)}
    {r : Except IndexError (IndexState × IndexReport)}
    (h : run (a.session.bringUpToDate a.outside a.options)
      { a.world with events := [], checks := 0 } = (r, w')) :
    ∃ asked, w'.asked = a.world.asked ++ asked ∧
      (r = .error .cancelled ∧ asked = [] ∨
        ∃ queue, a.queued = .ok queue ∧ AskedFor queue (r = .error .cancelled) asked) := by
  rw [Session.run_bringUpToDate a.outside start] at h
  split at h
  next stopped =>
    cases h
    exact ⟨[], (List.append_nil _).symm, .inl ⟨rfl, rfl⟩⟩
  next =>
    split at h
    next idle =>
      cases h
      simp only [Bool.and_eq_true, Bool.not_eq_true'] at idle
      obtain ⟨draft, planned⟩ := Session.planDiff_nothing (s := a.session)
        (FileDiff.empty_of_unchanged idle.1.1).2 (a.world.compared a.options current.size)
      exact ⟨[], (List.append_nil _).symm, .inr
        ⟨[], (queued_iff start).mpr ⟨draft, [], _, planned, rfl⟩, askedFor_nothing _⟩⟩
    next =>
      obtain ⟨asked, told, ends⟩ := Session.asked_update records h
      refine ⟨asked, told, ends.imp id ?_⟩
      rintro ⟨draft, plans, v, planned, asked_for⟩
      exact ⟨queueOf plans, (queued_iff start).mpr ⟨draft, plans, v, planned, rfl⟩, asked_for⟩

theorem asked_run (records : a.session.provider = p.recording)
    (start : a.outset = .ok (base, rebuilt, current)) :
    ∃ asked, a.after.world.asked = a.world.asked ++ asked ∧
      (a.result = .error .cancelled ∧ asked = [] ∨
        ∃ queue, a.queued = .ok queue ∧ AskedFor queue (a.result = .error .cancelled) asked) := by
  have asked := asked_bringUpToDate records start (Prod.mk.eta.symm)
  obtain ⟨world, cancelled⟩ := a.session.conclude_error
    (run (a.session.bringUpToDate a.outside a.options) { a.world with events := [], checks := 0 })
    .cancelled
  rw [after, result, Session.index_eq_conclude, world, cancelled]
  exact asked

/-- The run queues the new contents of the files that it cuts, each once. Unless it is cancelled
before it embeds them, it asks for nothing but what it has queued: for each text once at most if no
batch is rejected, and once exactly if every batch is accepted and the run is not cancelled. -/
theorem new_contents_asked_once (records : a.session.provider = p.recording)
    (start : a.outset = .ok (base, rebuilt, current)) (synchronised : base.Synchronised)
    (wellFormed : base.catalogue.WellFormed) :
    (∀ queue, a.queued = .ok queue → ∃ cuts,
      cuts.map (·.path) = (Snapshot.diff current base.files).toProcess ∧
      (∀ f ∈ cuts, a.session.CutOnTheWay a.outside a.options a.world.disk f) ∧
      QueuesNew base cuts queue) ∧
    ∃ asked, a.after.world.asked = a.world.asked ++ asked ∧
      (a.result = .error .cancelled ∧ asked = [] ∨
        ∃ queue, a.queued = .ok queue ∧ AskedFor queue (a.result = .error .cancelled) asked) := by
  refine ⟨fun queue queued => ?_, asked_run records start⟩
  obtain ⟨draft, plans, v, planned, rfl⟩ := (queued_iff start).mp queued
  obtain ⟨cuts, paths, cut, new⟩ := Session.queuesNew_planDiff synchronised wellFormed planned
  have reached := World.reaches_compared a.world a.options current.size
  exact ⟨cuts, paths, fun f hf => (cut f hf).later reached, new⟩

section Sample

/-- A chunk of a file that holds one letter. -/
def letterChunk (path text : String) : Chunk :=
  { id := path ++ "#0", kind := .function, name := none, filePath := path, language := .javascript
    scope := "", span := ⟨1, 1, 1, 1⟩, contentHash := Blake3.hexOfText text, text, facts := {} }

/-- The index of two files. -/
def lettersSample : IndexState :=
  { catalogue := (Catalogue.empty.set (letterChunk "x.js" "A")).set (letterChunk "y.js" "B")
    table :=
      { dimension := some 1
        vectors := ((∅ : SortedMap Embedding).insert "x.js#0" #[1]).insert "y.js#0" #[1] }
    files := .ofList [("x.js", Blake3.hex [65]), ("y.js", Blake3.hex [66])]
    manifest := some (.new "sample" (some 1) ⟨0, 0⟩) }

theorem synchronised_lettersSample : lettersSample.Synchronised := by
  intro id
  rw [lettersSample, Catalogue.get?_set, Catalogue.get?_set, Catalogue.get?_empty,
    VectorTable.get?, SortedMap.get?_insert, SortedMap.get?_insert, SortedMap.get?_empty]
  have ids : (letterChunk "x.js" "A").id = "x.js#0" ∧ (letterChunk "y.js" "B").id = "y.js#0" :=
    ⟨rfl, rfl⟩
  rw [ids.1, ids.2]
  repeat' split
  all_goals rfl

theorem wellFormed_lettersSample : lettersSample.catalogue.WellFormed :=
  Catalogue.wellFormed_set (Catalogue.wellFormed_set Catalogue.wellFormed_empty _) _

/-- A run that asks for one text at a time and writes down what it asks for. -/
def lettersRun (state : IndexState) (disk : Disk) (options : IndexOptions) :
    Attempt (Unit × List Asked) :=
  { session :=
      { root := "/r", provider := sampleProvider.recording, state, loaded := true
        settings := { limits := { minSize := 0 }, batchSize := 1, concurrency := 1 } }
    world := { disk, provider := ((), []) }
    outside := sampleSurroundings
    options }

/-- Of the files that were indexed, one was moved and the other was rewritten. A third file has the
old content of that one, and a fourth has the new content as well. -/
def movedSample : Attempt (Unit × List Asked) :=
  lettersRun lettersSample
    (((({} : Disk).withFile "r/v.js" [67]).withFile "r/w.js" [65]).withFile "r/y.js" [67]
      |>.withFile "r/z.js" [66]) {}

/-- One text of five chunks is asked for. -/
theorem new_contents_asked_once_movedSample : ∃ current,
    movedSample.outset = .ok (lettersSample, false, current) ∧
    (∀ queue, movedSample.queued = .ok queue → ∃ cuts,
      cuts.map (·.path) = (Snapshot.diff current lettersSample.files).toProcess ∧
      QueuesNew lettersSample cuts queue) ∧
    (movedSample.after.world.asked.flatMap (·.texts)).Perm ["C"] := by
  have evaluated : (Scan.snapshot movedSample.world.disk "/r" defaultExcludes).isOk ∧
      movedSample.queued.toOption.map (·.map (·.text)) = some ["C"] ∧ movedSample.result.isOk ∧
      movedSample.after.world.asked.all (·.accepted) := by
    decide +kernel
  obtain ⟨scans, queues, succeeds, accepted⟩ := evaluated
  obtain ⟨current, scanned⟩ := exists_of_isOk scans
  have start : movedSample.outset = .ok (lettersSample, false, current) :=
    bind_eq_ok.mpr ⟨(lettersSample, false), rfl, bind_eq_ok.mpr ⟨current, scanned, rfl⟩⟩
  obtain ⟨new, asked, told, ends⟩ := new_contents_asked_once (a := movedSample) rfl start
    synchronised_lettersSample wellFormed_lettersSample
  have told : movedSample.after.world.asked = asked := told
  refine ⟨current, start, fun queue queued => ?_, ?_⟩
  · obtain ⟨cuts, paths, _, queues_new⟩ := new queue queued
    exact ⟨cuts, paths, queues_new⟩
  · have finished : movedSample.result ≠ .error .cancelled := fun cancelled => by
      rw [cancelled] at succeeds
      cases succeeds
    obtain ⟨queue, queued, asked_for⟩ := ends.resolve_left fun cut => finished cut.1
    rw [queued] at queues
    have texts : queue.map (·.text) = ["C"] := Option.some.inj queues
    rw [told, ← texts]
    rw [told] at accepted
    exact asked_for.once (List.all_eq_true.mp accepted) finished

/-- A run over two new files that is cancelled when the first of two batches was answered. -/
def cancelledSample : Attempt (Unit × List Asked) :=
  lettersRun (.ofDimension (some 1))
    ((({} : Disk).withFile "r/x.js" [65]).withFile "r/y.js" [66])
    { cancelled := some fun _ checks => decide (4 ≤ checks) }

/-- A text that is queued need not be asked for, although no batch is rejected. -/
theorem not_always_asked_once : ¬∀ (a : Attempt (Unit × List Asked)) base current,
    a.session.provider = sampleProvider.recording → a.options.force = false →
    a.world.asked = [] → a.outset = .ok (base, false, current) → base.Synchronised →
    base.catalogue.WellFormed → ∀ queue, a.queued = .ok queue →
    (∀ q ∈ a.after.world.asked, q.rejected = false) →
    (a.after.world.asked.flatMap (·.texts)).Perm (queue.map (·.text)) := by
  intro always
  have evaluated : (Scan.snapshot cancelledSample.world.disk "/r" defaultExcludes).isOk ∧
      cancelledSample.queued.toOption.map (·.map (·.text)) = some ["A", "B"] ∧
      cancelledSample.after.world.asked.map (·.texts) = [["A"]] ∧
      cancelledSample.after.world.asked.all fun q => !q.rejected := by
    decide +kernel
  obtain ⟨scans, queues, asked, none_rejected⟩ := evaluated
  obtain ⟨current, scanned⟩ := exists_of_isOk scans
  have start : cancelledSample.outset = .ok (.ofDimension (some 1), false, current) :=
    bind_eq_ok.mpr ⟨(.ofDimension (some 1), false), rfl, bind_eq_ok.mpr ⟨current, scanned, rfl⟩⟩
  cases queued : cancelledSample.queued with
  | error e =>
    rw [queued] at queues
    cases queues
  | ok queue =>
    rw [queued] at queues
    have texts : queue.map (·.text) = ["A", "B"] := Option.some.inj queues
    have once := always cancelledSample _ current rfl rfl rfl start
      (IndexState.synchronised_ofDimension _) Catalogue.wellFormed_empty queue queued
      fun q asked => by simpa using List.all_eq_true.mp none_rejected q asked
    rw [List.flatMap_def, asked, texts] at once
    exact absurd once.length_eq (by decide)

end Sample

end Attempt

end Lookalike
