import Lookalike.Index.Session
import Lookalike.Proofs.Index.Snapshot
import Lookalike.Proofs.Index.Update

/-!
# Runs that succeed

A run is a sequence of actions, and it succeeds only if each of them does. Here a successful run is
taken apart: what it started from, which files it cut and what each held at that moment, what was
embedded, and that writing the new state is the last thing it does to the world. Others may change
the disk whenever progress is told; the disks that this can lead to are those that a run reaches.
-/

namespace Lookalike

namespace IndexOptions

/-- The disk after an event. -/
def diskAfter (o : IndexOptions) (events : Nat) (p : Progress) (d : Disk) : Disk :=
  match o.onProgress with
  | some change => change events p d
  | none => d

/-- What others may make of a disk while a run with these options goes on. -/
inductive Reaches (o : IndexOptions) (d : Disk) : Disk → Prop
  | start : Reaches o d d
  | event {e : Disk} (events : Nat) (p : Progress) (before : Reaches o d e) :
      Reaches o d (o.diskAfter events p e)

theorem Reaches.trans {o : IndexOptions} {d e f : Disk} (first : o.Reaches d e)
    (second : o.Reaches e f) : o.Reaches d f := by
  induction second with
  | start => exact first
  | event events p _ ih => exact .event events p ih

/-- Nobody else changes the disk when progress is told. -/
def Still (o : IndexOptions) : Prop := ∀ events p d, o.diskAfter events p d = d

theorem still_of_none {o : IndexOptions} (nobody : o.onProgress = none) : o.Still := by
  intro events p d
  rw [diskAfter, nobody]

theorem Reaches.eq_of_still {o : IndexOptions} {d e : Disk} (h : o.Reaches d e) (still : o.Still) :
    e = d := by
  induction h with
  | start => rfl
  | event events p _ ih => rw [still events p, ih]

/-- Whether a run is cancelled after some events and some checks. -/
def stopsAt (o : IndexOptions) (events checks : Nat) : Bool := o.cancelled.any (· events checks)

/-- A run with these options may be cancelled. -/
def Stops (o : IndexOptions) : Prop := ∃ events checks, o.stopsAt events checks

end IndexOptions

namespace Action

variable {σ α β : Type} {w w' : World σ}

theorem run_bind (x : Action σ α) (f : α → Action σ β) (w : World σ) :
    run (x >>= f) w =
      match run x w with
      | (.ok a, w) => run (f a) w
      | (.error e, w) => (.error e, w) := by
  show StateT.run (ExceptT.run x >>= ExceptT.bindCont f) w = _
  rw [StateT.run_bind]
  simp only [run]
  rcases StateT.run (ExceptT.run x) w with ⟨_ | _, _⟩ <;> rfl

theorem run_bind_ok {x : Action σ α} {f : α → Action σ β} {b : β} :
    run (x >>= f) w = (.ok b, w') ↔
      ∃ a v, run x w = (.ok a, v) ∧ run (f a) v = (.ok b, w') := by
  rw [run_bind]
  rcases run x w with ⟨e | a, v⟩
  · simp
  · constructor
    · intro h
      exact ⟨a, v, rfl, h⟩
    · rintro ⟨_, _, same, h⟩
      cases same
      exact h

/-- Actions one after the other end in the first or in the second of them. -/
theorem run_bind_result {x : Action σ α} {f : α → Action σ β} {r : Except IndexError β}
    (h : run (x >>= f) w = (r, w')) :
    (∃ e, run x w = (.error e, w') ∧ r = .error e) ∨
      ∃ a v, run x w = (.ok a, v) ∧ run (f a) v = (r, w') := by
  rw [run_bind] at h
  generalize run x w = result at h
  obtain ⟨e | a, v⟩ := result
  · cases h
    exact .inl ⟨e, rfl, rfl⟩
  · exact .inr ⟨a, v, rfl, h⟩

theorem run_get (w : World σ) : run (get : Action σ (World σ)) w = (.ok w, w) := rfl

theorem run_set (v w : World σ) : run (set v : Action σ Unit) w = (.ok (), v) := rfl

theorem run_ofExcept (result : Except IndexError α) (w : World σ) :
    run (ofExcept result : Action σ α) w = (result, w) := rfl

theorem run_ofExcept_ok {result : Except IndexError α} {a : α} :
    run (ofExcept result : Action σ α) w = (.ok a, w') ↔ result = .ok a ∧ w' = w := by
  rw [run_ofExcept]
  constructor
  · intro h
    cases h
    exact ⟨rfl, rfl⟩
  · rintro ⟨rfl, rfl⟩
    rfl

theorem run_tell (options : IndexOptions) (p : Progress) (w : World σ) :
    run (tell options p : Action σ Unit) w = (.ok (), { w with
      disk := options.diskAfter w.events.length p w.disk
      events := w.events ++ [p] }) := rfl

theorem run_checkCancelled (options : IndexOptions) (w : World σ) :
    run (checkCancelled options : Action σ Unit) w =
      (if options.stopsAt w.events.length w.checks then .error .cancelled else .ok (),
        { w with checks := w.checks + 1 }) := by
  obtain ⟨force, exclude, _ | cancelled, onProgress⟩ := options
  · rfl
  · rw [checkCancelled, run_bind, run_get]
    dsimp only
    rw [run_bind, run_set]
    by_cases now : cancelled w.events.length w.checks <;> simp [IndexOptions.stopsAt, now] <;> rfl

theorem checkCancelled_result {options : IndexOptions} {r : Except IndexError Unit}
    (h : run (checkCancelled options : Action σ Unit) w = (r, w')) :
    w' = { w with checks := w.checks + 1 } := by
  rw [run_checkCancelled] at h
  cases h
  rfl

/-- What may become of a world before a run writes: the disk is left to others, and nothing is told
of writing. -/
structure Passed (options : IndexOptions) (w w' : World σ) : Prop where
  reached : options.Reaches w.disk w'.disk
  untold : ∀ p ∈ w'.events, p.phase = .persisting → p ∈ w.events

theorem Passed.refl (options : IndexOptions) (w : World σ) : Passed options w w :=
  ⟨.start, fun _ told _ => told⟩

theorem Passed.trans {options : IndexOptions} {u v w : World σ} (first : Passed options u v)
    (second : Passed options v w) : Passed options u w where
  reached := first.reached.trans second.reached
  untold := fun p told writing => first.untold p (second.untold p told writing) writing

section Passive

/-- The action does nothing yet of what writing does. -/
def Passive (options : IndexOptions) (x : Action σ α) : Prop :=
  ∀ w r w', run x w = (r, w') → Passed options w w'

variable {options : IndexOptions}

theorem passive_pure (a : α) : Passive options (pure a : Action σ α) := by
  intro w r w' h
  cases h
  exact .refl options w

theorem passive_throw (e : IndexError) : Passive options (throw e : Action σ α) := by
  intro w r w' h
  cases h
  exact .refl options w

theorem passive_ofExcept (result : Except IndexError α) :
    Passive options (ofExcept result : Action σ α) := by
  intro w r w' h
  cases h
  exact .refl options w

theorem passive_get : Passive options (get : Action σ (World σ)) := by
  intro w r w' h
  cases h
  exact .refl options w

theorem passive_bind {x : Action σ α} {f : α → Action σ β} (first : Passive options x)
    (rest : ∀ a, Passive options (f a)) : Passive options (x >>= f) := by
  intro w r w' h
  rw [run_bind] at h
  generalize ran : run x w = result at h
  obtain ⟨e | a, v⟩ := result
  · cases h
    exact first w _ _ ran
  · exact (first w _ v ran).trans (rest a v r w' h)

/-- After a passive action the run has failed, or it goes on. -/
theorem passive_then {x : Action σ α} {f : α → Action σ β} {r : Except IndexError β}
    {u : World σ} (before : Passed options u w) (passive : Passive options x)
    (h : run (x >>= f) w = (r, w')) :
    (∃ e, r = .error e ∧ Passed options u w') ∨
      ∃ a v, run x w = (.ok a, v) ∧ Passed options u v ∧ run (f a) v = (r, w') := by
  rcases run_bind_result h with ⟨e, failed, same⟩ | ⟨a, v, succeeded, rest⟩
  · exact .inl ⟨e, same, before.trans (passive w _ w' failed)⟩
  · exact .inr ⟨a, v, succeeded, before.trans (passive w _ v succeeded), rest⟩

theorem reaches_tell {p : Progress} {r : Except IndexError Unit}
    (h : run (tell options p : Action σ Unit) w = (r, w')) : options.Reaches w.disk w'.disk := by
  rw [run_tell] at h
  cases h
  exact .event _ _ .start

theorem passive_tell {p : Progress} (other : p.phase ≠ .persisting) :
    Passive options (tell options p : Action σ Unit) := by
  intro w r w' h
  refine ⟨reaches_tell h, fun q told writing => ?_⟩
  rw [run_tell] at h
  cases h
  rcases List.mem_append.mp told with before | now
  · exact before
  · rw [List.mem_singleton.mp now] at writing
    exact absurd writing other

theorem passive_checkCancelled : Passive options (checkCancelled options : Action σ Unit) := by
  intro w r w' h
  rw [checkCancelled_result h]
  exact ⟨.start, fun _ told _ => told⟩

theorem passive_ask (question : σ → α × σ) : Passive options (ask question : Action σ α) := by
  intro w r w' h
  cases h
  exact ⟨.start, fun _ told _ => told⟩

variable (provider : Provider σ)

theorem passive_embedSingly (e : Embedded) (queue : List QueuedText) :
    Passive options (embedSingly provider e queue) := by
  induction queue generalizing e with
  | nil => exact passive_pure e
  | cons q rest ih =>
    refine passive_bind (passive_ask _) fun answer => ?_
    cases answer with
    | ok v => exact ih _
    | error cause =>
      show Passive options (if cause.isInputSpecific then _ else _)
      split
      · exact ih _
      · exact passive_throw _

theorem passive_takeIn (e : Embedded) (sent : SentBatch) :
    Passive options (takeIn provider options e sent) := by
  refine passive_bind passive_checkCancelled fun _ => ?_
  cases BatchVerdict.of sent.batch.length sent.answer with
  | accepted vectors => exact passive_pure _
  | rejected => exact passive_embedSingly provider e sent.batch
  | fatal cause => exact passive_throw _

theorem passive_embedBatches (limit total : Nat) (moves : List Move) (done : Nat) (e : Embedded)
    (flying : List SentBatch) (waiting : List (List QueuedText)) :
    Passive options (embedBatches provider options limit total moves done e flying waiting) := by
  fun_induction embedBatches provider options limit total moves done e flying waiting with
  | case1 => exact passive_pure _
  | case2 _ _ _ _ _ batch rest _ ih => exact passive_bind (passive_ask _) fun _ => ih _
  | case3 _ _ _ _ _ sent rest _ ih =>
    exact passive_bind (passive_takeIn provider _ sent) fun _ =>
      passive_bind (passive_tell (by nofun)) fun _ => ih _

theorem passive_embedQueue (batchSize concurrency : Nat) (moves : List Move)
    (queue : List QueuedText) :
    Passive options (embedQueue provider options batchSize concurrency moves queue) := by
  rw [embedQueue]
  split
  · exact passive_pure _
  · exact passive_bind (passive_tell (by nofun)) fun _ =>
      passive_embedBatches provider _ _ _ _ _ _ _

end Passive

end Action

section Compared

variable {σ : Type}

/-- The world in which a run has scanned and compared that nobody cancels. -/
def World.compared (w : World σ) (options : IndexOptions) (total : Nat) : World σ :=
  { w with
    disk := options.diskAfter 1 { phase := .diffing, total }
      (options.diskAfter 0 { phase := .scanning } w.disk)
    events := [{ phase := .scanning }, { phase := .diffing, total }]
    checks := 1 }

theorem World.reaches_compared (w : World σ) (options : IndexOptions) (total : Nat) :
    options.Reaches w.disk (w.compared options total).disk := .event _ _ (.event _ _ .start)

end Compared

namespace Session

open Action

variable {σ : Type} {s : Session σ} {outside : Surroundings} {options : IndexOptions}

/-- Files that are cut one after the other, each from a disk that the run has reached. -/
def CutOnTheWay (s : Session σ) (outside : Surroundings) (options : IndexOptions) (d : Disk)
    (f : CutFile) : Prop :=
  ∃ e, options.Reaches d e ∧ f = s.cutFile outside.parse e f.path

theorem path_cutFile (s : Session σ) (parse : Language → String → Option SyntaxTree) (d : Disk)
    (path : String) : (s.cutFile parse d path).path = path := by
  rw [cutFile]
  split <;> rfl

/-- The chunks of a text that is cut are those of a tree of it; a text that is skipped has none. -/
theorem found_cutText (parse : Language → String → Option SyntaxTree) (limits : ChunkLimits)
    (path hash : String) (bytes : List UInt8) :
    (CutFile.mk path hash (cutText parse limits path bytes)).found = [] ∨ ∃ lang source tree,
      parse lang source = some tree ∧
        (CutFile.mk path hash (cutText parse limits path bytes)).found =
        chunksOf lang limits path source tree := by
  simp only [CutFile.found, cutText]
  split
  next chunks cut =>
    split at cut
    next => cases cut
    next => cases cut
    next lang source _ _ =>
      split at cut
      next tree parsed =>
        cases cut
        exact .inr ⟨lang, source, tree, parsed, rfl⟩
      next => cases cut
  next => exact .inl rfl

theorem found_cutFile (s : Session σ) (parse : Language → String → Option SyntaxTree) (d : Disk)
    (path : String) : (s.cutFile parse d path).found = [] ∨ ∃ lang source tree,
      parse lang source = some tree ∧
      (s.cutFile parse d path).found = chunksOf lang s.settings.limits path source tree := by
  rw [cutFile]
  split
  next => exact .inl rfl
  next bytes _ => exact found_cutText parse s.settings.limits path _ bytes

theorem genuine_cutFile (s : Session σ) (parse : Language → String → Option SyntaxTree) (d : Disk)
    (path : String) : (s.cutFile parse d path).Genuine := by
  intro c hc
  rw [path_cutFile]
  rcases found_cutFile s parse d path with nothing | ⟨lang, source, tree, _, chunks⟩
  · simp [nothing] at hc
  · rw [chunks] at hc
    exact Chunk.cutFrom_of_mem_chunksOf hc

theorem passive_planFiles (base : IndexState) (done total : Nat) (d : Draft) (paths : List String) :
    Passive options (s.planFiles outside options base done total d paths) := by
  induction paths generalizing done d with
  | nil => exact passive_pure _
  | cons path rest ih =>
    exact passive_bind passive_checkCancelled fun _ => passive_bind (passive_tell (by nofun))
      fun _ => passive_bind passive_get fun _ => passive_bind (ih _ _) fun _ => passive_pure _

/-- Planning files in a run is planning what is cut on the way. -/
theorem planFiles_ok {base : IndexState} {done total : Nat} {d e : Draft} {paths : List String}
    {plans : List FilePlan} {w w' : World σ}
    (h : run (s.planFiles outside options base done total d paths) w = (.ok (e, plans), w')) :
    ∃ cuts, cuts.map (·.path) = paths ∧
      (∀ f ∈ cuts, s.CutOnTheWay outside options w.disk f) ∧ (e, plans) = d.planAll base cuts := by
  induction paths generalizing done d e plans w w' with
  | nil =>
    cases h
    exact ⟨[], rfl, by simp, rfl⟩
  | cons path rest ih =>
    obtain ⟨_, w₁, checked, h⟩ := run_bind_ok.mp h
    obtain ⟨_, w₂, told, h⟩ := run_bind_ok.mp h
    obtain ⟨_, w₃, got, h⟩ := run_bind_ok.mp h
    cases got
    dsimp only at h
    generalize first : d.planFile base (s.cutFile outside.parse w₂.disk path) = made at h
    obtain ⟨d', plan⟩ := made
    obtain ⟨⟨e', plans'⟩, w₄, planned, h⟩ := run_bind_ok.mp h
    cases h
    have reached := (passive_checkCancelled _ _ _ checked).reached.trans (reaches_tell told)
    obtain ⟨cuts, same_paths, cut, same⟩ := ih planned
    refine ⟨s.cutFile outside.parse w₂.disk path :: cuts, ?_, ?_, ?_⟩
    · rw [List.map_cons, path_cutFile, same_paths]
    · intro f hf
      rcases List.mem_cons.mp hf with rfl | hf
      · exact ⟨w₂.disk, reached, by rw [path_cutFile]⟩
      · obtain ⟨g, reached_later, same⟩ := cut f hf
        exact ⟨g, reached.trans reached_later, same⟩
    · simp only [Draft.planAll, first, ← same]

/-- What a run starts from: a state, whether an index is discarded for it, and the snapshot of the
tree, which is taken after the first event. -/
def outset (s : Session σ) (options : IndexOptions) (d : Disk) :
    Except IndexError (IndexState × Bool × Snapshot) := do
  let (base, rebuilt) ← s.prepare d options.force
  let current ← Scan.snapshot (options.diskAfter 0 { phase := .scanning } d) s.root
    (s.settings.exclude ++ options.exclude)
  return (base, rebuilt, current)

/-- How a run begins, given what it starts from. -/
theorem run_bringUpToDate (outside : Surroundings) {w : World σ} {base : IndexState}
    {rebuilt : Bool} {current : Snapshot}
    (start : s.outset options w.disk = .ok (base, rebuilt, current)) :
    run (s.bringUpToDate outside options) { w with events := [], checks := 0 } =
      if options.stopsAt 0 0 then (.error .cancelled, { w with events := [], checks := 1 })
      else if !(Snapshot.diff current base.files).hasChanges && !rebuilt &&
          base.manifest.isSome then
        (.ok (base, withTotals (reportOf (Snapshot.diff current base.files) rebuilt) base),
          w.compared options current.size)
      else run (s.update outside options base rebuilt (Snapshot.diff current base.files))
        (w.compared options current.size) := by
  obtain ⟨⟨_, _⟩, prepared, start⟩ := bind_eq_ok.mp start
  obtain ⟨_, scanned, same⟩ := bind_eq_ok.mp start
  cases same
  rw [bringUpToDate, run_bind, run_get]
  dsimp only
  rw [run_bind, run_ofExcept, prepared]
  dsimp only
  rw [run_bind, run_checkCancelled, List.length_nil]
  by_cases stopped : options.stopsAt 0 0
  · rw [if_pos stopped, if_pos stopped]
  rw [if_neg stopped, if_neg stopped]
  dsimp only
  rw [run_bind, run_tell]
  dsimp only
  rw [run_bind, run_get]
  dsimp only
  rw [run_bind, run_ofExcept, List.length_nil, scanned]
  dsimp only
  rw [run_bind, run_tell]
  dsimp only
  split <;> rfl

/-- How a run goes that nobody cancels, given what it starts from. -/
theorem bringUpToDate_of_outset (outside : Surroundings) (unstopped : ¬options.Stops)
    {w : World σ} {base : IndexState} {rebuilt : Bool} {current : Snapshot}
    (start : s.outset options w.disk = .ok (base, rebuilt, current)) :
    run (s.bringUpToDate outside options) { w with events := [], checks := 0 } =
      if !(Snapshot.diff current base.files).hasChanges && !rebuilt && base.manifest.isSome then
        (.ok (base, withTotals (reportOf (Snapshot.diff current base.files) rebuilt) base),
          w.compared options current.size)
      else run (s.update outside options base rebuilt (Snapshot.diff current base.files))
        (w.compared options current.size) := by
  have goes_on : ¬options.stopsAt 0 0 := fun now => unstopped ⟨0, 0, now⟩
  rw [run_bringUpToDate outside start, if_neg goes_on]

/-- What a run that finds a difference did before it wrote: which files it cut, what was embedded,
and the state and the report that it made. -/
structure Ran (s : Session σ) (outside : Surroundings) (options : IndexOptions) (base : IndexState)
    (diff : FileDiff) (d : Disk) (cuts : List CutFile) (embedded : Embedded) (t : IndexState)
    (told : IndexReport) : Prop where
  paths : cuts.map (·.path) = diff.toProcess
  cut : ∀ f ∈ cuts, s.CutOnTheWay outside options d f
  embedding : ∃ v v' : World σ, run (embedQueue s.provider options s.settings.batchSize
    s.settings.concurrency outside.moves
    (queueOf (cuts.map ((base.without diff.deleted).planOf base)))) v = (.ok embedded, v')
  updated : IndexState.Updated base diff.deleted cuts embedded t
  manifest : t.manifest = base.manifest
  classes : told.classes = (reportOf diff false).classes
  failed : told.failedChunks = (((cuts.map ((base.without diff.deleted).planOf base)).flatMap
    (·.chunks)).filter fun x => !x.2.lands embedded x.1).map fun x => embedded.failure x.1

/-- The files that are cut are those that are to be processed. -/
theorem Ran.cut_iff {base t : IndexState} {diff : FileDiff} {d : Disk} {cuts : List CutFile}
    {embedded : Embedded} {told : IndexReport}
    (ran : Ran s outside options base diff d cuts embedded t told) (path : String) :
    (∃ f ∈ cuts, f.path = path) ↔ path ∈ diff.toProcess := by
  rw [← ran.paths, List.mem_map]

theorem CutOnTheWay.later {d e : Disk} {f : CutFile} (h : s.CutOnTheWay outside options e f)
    (reached : options.Reaches d e) : s.CutOnTheWay outside options d f := by
  obtain ⟨g, way, same⟩ := h
  exact ⟨g, reached.trans way, same⟩

theorem Ran.earlier {base t : IndexState} {diff : FileDiff} {d e : Disk} {cuts : List CutFile}
    {embedded : Embedded} {told : IndexReport}
    (ran : Ran s outside options base diff e cuts embedded t told) (reached : options.Reaches d e) :
    Ran s outside options base diff d cuts embedded t told :=
  { ran with cut := fun f hf => (ran.cut f hf).later reached }

theorem state_foldl_forgetFile (deleted : List String) (d : Draft) :
    (deleted.foldl Draft.forgetFile d).state = d.state.without deleted :=
  (List.foldl_hom Draft.state fun _ _ => rfl).symm

section Manifest

theorem manifest_without (base : IndexState) (deleted : List String) :
    (base.without deleted).manifest = base.manifest :=
  read_foldl IndexState.manifest IndexState.withoutFile (fun _ _ => rfl) deleted base

theorem manifest_planAll (base : IndexState) (d : Draft) (cuts : List CutFile) :
    (d.planAll base cuts).1.state.manifest = d.state.manifest := by
  induction cuts generalizing d with
  | nil => rfl
  | cons f cuts ih =>
    refine (ih (d.planFile base f).1).trans ?_
    rw [Draft.planFile_state]
    exact read_foldl IndexState.manifest IndexState.removeChunk (fun _ _ => rfl) _ d.state

end Manifest

theorem genuine_of_cutOnTheWay {d : Disk} {f : CutFile} (h : s.CutOnTheWay outside options d f) :
    f.Genuine := by
  obtain ⟨e, _, same⟩ := h
  rw [same]
  exact genuine_cutFile s outside.parse e f.path

/-- The passes of an update over a regular state. -/
theorem ran_of_passes {base : IndexState} {rebuilt : Bool} {current : Snapshot} {d : Disk}
    {cuts : List CutFile} {draft applied : Draft} {plans : List FilePlan} {embedded : Embedded}
    {v v' : World σ} (r : base.Regular)
    (paths : cuts.map (·.path) = (Snapshot.diff current base.files).toProcess)
    (cut : ∀ f ∈ cuts, s.CutOnTheWay outside options d f)
    (planned : (draft, plans) = Draft.planAll base
      ((Snapshot.diff current base.files).deleted.foldl Draft.forgetFile
        { state := base, report := reportOf (Snapshot.diff current base.files) rebuilt }) cuts)
    (embedding : run (embedQueue s.provider options s.settings.batchSize s.settings.concurrency
      outside.moves (queueOf plans)) v = (.ok embedded, v'))
    (applies : draft.applyPlans embedded plans = .ok applied) :
    Ran s outside options base (Snapshot.diff current base.files) d cuts embedded applied.state
      applied.report := by
  generalize begun : (Snapshot.diff current base.files).deleted.foldl Draft.forgetFile
    { state := base, report := reportOf (Snapshot.diff current base.files) rebuilt } = start
    at planned
  have at_start : start.state = base.without (Snapshot.diff current base.files).deleted := by
    rw [← begun, state_foldl_forgetFile]
  have told_at_start :
      (reportOf (Snapshot.diff current base.files) rebuilt).Continues start.report := by
    rw [← begun]
    exact Draft.continues_foldl Draft.forgetFile (fun _ _ => ⟨rfl, rfl⟩) _
      { state := base, report := reportOf (Snapshot.diff current base.files) rebuilt }
  have regular : start.state.Regular := by
    rw [at_start]
    exact (IndexState.left_of_foldl r _).regular
  have genuine : ∀ f ∈ cuts, f.Genuine := fun f hf => genuine_of_cutOnTheWay (cut f hf)
  have distinct : (cuts.map (·.path)).Nodup := by
    rw [paths]
    exact Snapshot.nodup_toProcess current base.files
  obtain ⟨plans_eq, all_planned⟩ := Draft.planAll_planned regular base distinct genuine
  have told_by_plans := told_at_start.trans (Draft.continues_planAll base start cuts)
  have manifest := manifest_planAll base start cuts
  rw [← planned, at_start] at plans_eq all_planned
  rw [← planned] at told_by_plans
  rw [← planned, at_start, manifest_without] at manifest
  subst plans_eq
  obtain ⟨carried, files, kept⟩ := Draft.applyPlans_carried applies
  obtain ⟨classes, failed⟩ := Draft.failed_applyPlans applies
  refine ⟨paths, cut, ⟨v, v', embedding⟩, ?_, kept.trans manifest,
    classes.trans told_by_plans.classes, ?_⟩
  · refine ⟨r, distinct, genuine, fun f hf => ?_, draft.state, all_planned, carried, files⟩
    refine Snapshot.not_deleted_of_mem_toProcess current base.files ?_
    rw [← paths]
    exact List.mem_map_of_mem hf
  · rw [failed, told_by_plans.failedChunks]
    rfl

/-- An update fails on the way, or it makes its passes and ends in writing what they come to. -/
theorem update_result {base : IndexState} {rebuilt : Bool} {current : Snapshot} {w w' : World σ}
    {r : Except IndexError (IndexState × IndexReport)}
    (h : run (s.update outside options base rebuilt (Snapshot.diff current base.files)) w =
      (r, w')) :
    (∃ e, r = .error e ∧ Passed options w w') ∨
      ∃ cuts embedded t told v q,
        (base.Regular → Ran s outside options base (Snapshot.diff current base.files) w.disk cuts
          embedded t told) ∧ options.Reaches w.disk v.disk ∧
        run (s.writeOut t (s.nextManifest t rebuilt outside.now)) v = (q, w') ∧
        r = q.map fun _ => ({ t with manifest := some (s.nextManifest t rebuilt outside.now) },
          withTotals told t) := by
  rcases passive_then (.refl options w) (passive_planFiles _ _ _ _ _) h with
    failed | ⟨⟨draft, plans⟩, w₁, planned, passed, h⟩
  · exact .inl failed
  rcases passive_then passed passive_checkCancelled h with failed | ⟨_, w₂, _, passed, h⟩
  · exact .inl failed
  rcases passive_then passed (passive_embedQueue _ _ _ _ _) h with
    failed | ⟨embedded, w₃, embedding, passed, h⟩
  · exact .inl failed
  rcases passive_then passed (passive_ofExcept _) h with
    failed | ⟨applied, w₄, carried, passed, h⟩
  · exact .inl failed
  obtain ⟨applies, _⟩ := run_ofExcept_ok.mp carried
  rcases passive_then passed passive_checkCancelled h with failed | ⟨_, w₅, _, passed, h⟩
  · exact .inl failed
  rcases run_bind_result h with ⟨_, failed, _⟩ | ⟨_, w₆, writing, h⟩
  · cases failed
  have reached := passed.reached.trans (reaches_tell writing)
  obtain ⟨cuts, paths, cut, same⟩ := planFiles_ok planned
  have ran (regular : base.Regular) := ran_of_passes regular paths cut same embedding applies
  rcases run_bind_result h with ⟨e, failed, rfl⟩ | ⟨_, w₇, persisted, ended⟩
  · exact .inr
      ⟨cuts, embedded, applied.state, applied.report, w₆, .error e, ran, reached, failed, rfl⟩
  · cases ended
    exact .inr
      ⟨cuts, embedded, applied.state, applied.report, w₆, .ok (), ran, reached, persisted, rfl⟩

/-- A state is written if its stores have as many entries, and the run is stopped otherwise. -/
theorem run_writeOut (s : Session σ) (t : IndexState) (m : Manifest) (w : World σ) :
    run (s.writeOut t m) w =
      if t.catalogue.size = t.table.size then run (s.persist t m) w else (.error .panicked, w) := by
  rw [writeOut, run_bind, assert]
  by_cases sizes : t.catalogue.size = t.table.size <;> simp [sizes] <;> rfl

theorem writeOut_ok {t : IndexState} {m : Manifest} {w w' : World σ} :
    run (s.writeOut t m) w = (.ok (), w') ↔
      t.catalogue.size = t.table.size ∧ run (s.persist t m) w = (.ok (), w') := by
  rw [run_writeOut]
  split
  next sizes => exact ⟨fun wrote => ⟨sizes, wrote⟩, fun both => both.2⟩
  next sizes => exact ⟨nofun, fun both => absurd both.1 sizes⟩

/-- A run that succeeds found nothing to do, or it carried the difference over and wrote the state.
-/
inductive Outcome (s : Session σ) (outside : Surroundings) (options : IndexOptions)
    (w : World σ) (base : IndexState) (rebuilt : Bool) (current : Snapshot)
    (state : IndexState) (report : IndexReport) (w' : World σ) : Prop
  | unchanged (nothing : (Snapshot.diff current base.files).hasChanges = false)
      (continued : rebuilt = false) (indexed : base.manifest.isSome) (same : state = base)
      (counted : report = withTotals (reportOf (Snapshot.diff current base.files) rebuilt) base)
      (reached : options.Reaches w.disk w'.disk)
  | updated (cuts : List CutFile) (embedded : Embedded) (t : IndexState) (told : IndexReport)
      (v : World σ) (writes : (Snapshot.diff current base.files).hasChanges ∨ rebuilt ∨
        base.manifest = none) (ran : base.Regular → Ran s outside options base
        (Snapshot.diff current base.files) w.disk cuts embedded t told)
      (reached : options.Reaches w.disk v.disk)
      (written : run (s.persist t (s.nextManifest t rebuilt outside.now)) v = (.ok (), w'))
      (shape : state = { t with manifest := some (s.nextManifest t rebuilt outside.now) })
      (counted : report = withTotals told t) (sizes : t.catalogue.size = t.table.size)

/-- Where a run is when it fails for some cause: on the way, at the look whether the stores have as
many entries, or while it writes a state. -/
inductive FailedAt (s : Session σ) (outside : Surroundings) (options : IndexOptions)
    (w w' : World σ) (e : IndexError) : Prop
  | way (reached : options.Reaches w.disk w'.disk)
      (untold : ∀ p ∈ w'.events, p.phase ≠ .persisting)
  | stopped (base : IndexState) (rebuilt : Bool) (current : Snapshot) (cuts : List CutFile)
      (embedded : Embedded) (t : IndexState) (told : IndexReport)
      (start : s.outset options w.disk = .ok (base, rebuilt, current))
      (ran : base.Regular → Ran s outside options base (Snapshot.diff current base.files) w.disk
        cuts embedded t told)
      (reached : options.Reaches w.disk w'.disk) (cause : e = .panicked)
      (sizes : t.catalogue.size ≠ t.table.size)
  | writing (base : IndexState) (rebuilt : Bool) (current : Snapshot) (cuts : List CutFile)
      (embedded : Embedded) (t : IndexState) (told : IndexReport) (v : World σ)
      (start : s.outset options w.disk = .ok (base, rebuilt, current))
      (ran : base.Regular → Ran s outside options base (Snapshot.diff current base.files) w.disk
        cuts embedded t told)
      (reached : options.Reaches w.disk v.disk)
      (failed : run (s.persist t (s.nextManifest t rebuilt outside.now)) v = (.error e, w'))
      (sizes : t.catalogue.size = t.table.size)

/-- A run writes unless there are no changes and there is an index to continue. -/
theorem writes_iff {base : IndexState} {rebuilt : Bool} {diff : FileDiff} :
    (diff.hasChanges ∨ rebuilt ∨ base.manifest = none) ↔
      (!diff.hasChanges && !rebuilt && base.manifest.isSome) = false := by
  cases diff.hasChanges <;> cases rebuilt <;> cases base.manifest <;> simp

/-- A run that has not got to writing has failed on the way. -/
theorem failedAt_of_passed {w w' : World σ} {e : IndexError}
    (passed : Passed options { w with events := [], checks := 0 } w') :
    FailedAt s outside options w w' e := by
  refine .way passed.reached fun p told writing => ?_
  have before := passed.untold p told writing
  cases before

/-- How a run ends that has looked at the files. -/
theorem result_of_outset {base : IndexState} {rebuilt : Bool} {current : Snapshot}
    {w v w' : World σ} {r : Except IndexError (IndexState × IndexReport)}
    (start : s.outset options w.disk = .ok (base, rebuilt, current))
    (passed : Passed options { w with events := [], checks := 0 } v)
    (ended : run (if !(Snapshot.diff current base.files).hasChanges && !rebuilt &&
        base.manifest.isSome then
      pure (base, withTotals (reportOf (Snapshot.diff current base.files) rebuilt) base)
    else s.update outside options base rebuilt (Snapshot.diff current base.files)) v = (r, w')) :
    (∃ e, r = .error e ∧ FailedAt s outside options w w' e) ∨
      ∃ state report, r = .ok (state, report) ∧
        Outcome s outside options w base rebuilt current state report w' := by
  have reached : options.Reaches w.disk v.disk := passed.reached
  split at ended
  next nothing =>
    cases ended
    simp only [Bool.and_eq_true, Bool.not_eq_true'] at nothing
    exact .inr ⟨_, _, rfl, .unchanged nothing.1.1 nothing.1.2 nothing.2 rfl rfl reached⟩
  next something =>
    have writes := writes_iff.mpr (Bool.eq_false_iff.mpr something)
    rcases update_result ended with ⟨e, rfl, later⟩ |
      ⟨cuts, embedded, t, told, u, q, ran, later, wrote, rfl⟩
    · exact .inl ⟨e, rfl, failedAt_of_passed (passed.trans later)⟩
    have ran (regular : base.Regular) := (ran regular).earlier reached
    rw [run_writeOut] at wrote
    split at wrote
    next sizes =>
      cases q with
      | error e =>
        exact .inl ⟨e, rfl, .writing base rebuilt current cuts embedded t told u start ran
          (reached.trans later) wrote sizes⟩
      | ok =>
        exact .inr ⟨_, _, rfl,
          .updated cuts embedded t told u writes ran (reached.trans later) wrote rfl rfl sizes⟩
    next sizes =>
      cases wrote
      exact .inl ⟨_, rfl, .stopped base rebuilt current cuts embedded t told start ran
        (reached.trans later) rfl sizes⟩

/-- How a run ends. -/
theorem bringUpToDate_result {w w' : World σ} {r : Except IndexError (IndexState × IndexReport)}
    (h : run (s.bringUpToDate outside options) { w with events := [], checks := 0 } = (r, w')) :
    (∃ e, r = .error e ∧ FailedAt s outside options w w' e) ∨
      ∃ state report base rebuilt current, r = .ok (state, report) ∧
        s.outset options w.disk = .ok (base, rebuilt, current) ∧
        Outcome s outside options w base rebuilt current state report w' := by
  have way (failed : ∃ e, r = .error e ∧ Passed options { w with events := [], checks := 0 } w') :
      ∃ e, r = .error e ∧ FailedAt s outside options w w' e := by
    obtain ⟨e, same, passed⟩ := failed
    exact ⟨e, same, failedAt_of_passed passed⟩
  rcases passive_then (.refl options _) passive_get h with failed | ⟨_, w₁, got, passed, h₁⟩
  · exact .inl (way failed)
  cases got
  rcases passive_then passed (passive_ofExcept _) h₁ with
    failed | ⟨⟨base, rebuilt⟩, w₂, prepared, passed, h₂⟩
  · exact .inl (way failed)
  obtain ⟨prepares, rfl⟩ := run_ofExcept_ok.mp prepared
  rcases passive_then passed passive_checkCancelled h₂ with failed | ⟨_, w₃, checked, passed, h₃⟩
  · exact .inl (way failed)
  cases checkCancelled_result checked
  rcases passive_then passed (passive_tell (by nofun)) h₃ with
    failed | ⟨_, w₄, told, passed, h₄⟩
  · exact .inl (way failed)
  rcases passive_then passed passive_get h₄ with failed | ⟨_, w₅, got, passed, h₅⟩
  · exact .inl (way failed)
  cases got
  rcases passive_then passed (passive_ofExcept _) h₅ with
    failed | ⟨current, w₆, scanned, passed, h₆⟩
  · exact .inl (way failed)
  obtain ⟨scans, rfl⟩ := run_ofExcept_ok.mp scanned
  rcases passive_then passed (passive_tell (by nofun)) h₆ with
    failed | ⟨_, w₇, _, passed, ended⟩
  · exact .inl (way failed)
  have start : s.outset options w.disk = .ok (base, rebuilt, current) := by
    cases told
    simp only [outset, bind_eq_ok]
    exact ⟨(base, rebuilt), prepares, current, scans, rfl⟩
  rcases result_of_outset start passed ended with failed | ⟨state, report, same, outcome⟩
  · exact .inl failed
  · exact .inr ⟨state, report, base, rebuilt, current, same, start, outcome⟩

theorem index_ok {s' : Session σ} {w w' : World σ} {report : IndexReport}
    (h : s.index outside options w = (.ok report, s', w')) :
    ∃ state base rebuilt current, s' = { s with state, loaded := true, phase := .idle } ∧
      s.outset options w.disk = .ok (base, rebuilt, current) ∧
      Outcome s outside options w base rebuilt current state report w' := by
  rw [index] at h
  split at h
  next state report' v succeeded =>
    cases h
    rcases bringUpToDate_result succeeded with ⟨e, failed, _⟩ |
      ⟨state, report, base, rebuilt, current, same, start, outcome⟩
    · cases failed
    · cases same
      exact ⟨state, base, rebuilt, current, rfl, start, outcome⟩
  next => cases h

/-- An update that succeeds has planned and carried out its plans, and ends in writing. -/
theorem update_ok {base state : IndexState} {rebuilt : Bool} {diff : FileDiff}
    {report : IndexReport} {w w' : World σ}
    (h : run (s.update outside options base rebuilt diff) w = (.ok (state, report), w')) :
    ∃ cuts draft plans embedded applied v,
      (draft, plans) = Draft.planAll base (diff.deleted.foldl Draft.forgetFile
        { state := base, report := reportOf diff rebuilt }) cuts ∧
      Draft.applyPlans embedded draft plans = .ok applied ∧
      run (s.persist applied.state (s.nextManifest applied.state rebuilt outside.now)) v =
        (.ok (), w') ∧
      state = { applied.state with
        manifest := some (s.nextManifest applied.state rebuilt outside.now) } ∧
      report = withTotals applied.report applied.state := by
  obtain ⟨⟨draft, plans⟩, _, planned, h⟩ := run_bind_ok.mp h
  obtain ⟨_, _, _, h⟩ := run_bind_ok.mp h
  obtain ⟨embedded, _, _, h⟩ := run_bind_ok.mp h
  obtain ⟨applied, _, carried, h⟩ := run_bind_ok.mp h
  obtain ⟨_, _, _, h⟩ := run_bind_ok.mp h
  obtain ⟨_, v, _, h⟩ := run_bind_ok.mp h
  obtain ⟨_, _, persisted, ended⟩ := run_bind_ok.mp h
  cases ended
  obtain ⟨cuts, _, _, same⟩ := planFiles_ok planned
  exact ⟨cuts, draft, plans, embedded, applied, v, same, (run_ofExcept_ok.mp carried).1,
    (writeOut_ok.mp persisted).2, rfl, rfl⟩

/-- A run that succeeds leaves the state that it started from, or ends in an update of it. -/
theorem index_ok_or_update {s' : Session σ} {w w' : World σ} {report : IndexReport}
    (h : s.index outside options w = (.ok report, s', w')) :
    ∃ base rebuilt, s.prepare w.disk options.force = .ok (base, rebuilt) ∧
      (s'.state = base ∧ base.manifest.isSome ∨
        ∃ diff v, run (s.update outside options base rebuilt diff) v =
          (.ok (s'.state, report), w')) := by
  rw [index] at h
  split at h
  next state report' v ran =>
    cases h
    obtain ⟨_, _, got, ran⟩ := run_bind_ok.mp ran
    cases got
    obtain ⟨⟨base, rebuilt⟩, _, prepared, ran⟩ := run_bind_ok.mp ran
    obtain ⟨_, _, _, ran⟩ := run_bind_ok.mp ran
    obtain ⟨_, _, _, ran⟩ := run_bind_ok.mp ran
    obtain ⟨_, _, _, ran⟩ := run_bind_ok.mp ran
    obtain ⟨_, _, _, ran⟩ := run_bind_ok.mp ran
    obtain ⟨_, v, _, ran⟩ := run_bind_ok.mp ran
    refine ⟨base, rebuilt, (run_ofExcept_ok.mp prepared).1, ?_⟩
    dsimp only at ran
    split at ran
    next nothing =>
      cases ran
      simp only [Bool.and_eq_true] at nothing
      exact .inl ⟨rfl, nothing.2⟩
    next => exact .inr ⟨_, v, ran⟩
  next => cases h

theorem index_error {s' : Session σ} {w w' : World σ} {e : IndexError}
    (h : s.index outside options w = (.error e, s', w')) :
    (∃ phase, s' = { s with phase }) ∧ FailedAt s outside options w w' e := by
  rw [index] at h
  split at h
  next => cases h
  next cause v failed =>
    cases h
    rcases bringUpToDate_result failed with ⟨_, same, at_end⟩ | ⟨_, _, _, _, _, same, _⟩
    · cases same
      exact ⟨⟨_, rfl⟩, at_end⟩
    · cases same

end Session

end Lookalike
