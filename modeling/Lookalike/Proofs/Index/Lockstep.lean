import Lookalike.Proofs.Index.Batching

/-!
# Runs in lockstep

Two states of a provider are indistinguishable if they give the same answers and stay so. Runs whose
worlds differ in such states only, or in their disks as far as the runs do not see, go in lockstep:
they ask, tell and check the same, and find the same at every step.
-/

namespace Lookalike

open Action

variable {σ : Type}

/-- Related states of the provider give the same answers, and are related afterwards. -/
def Provider.Indistinguishable (p : Provider σ) (same : σ → σ → Prop) : Prop :=
  ∀ s s', same s s' → ∀ texts, (p.embedBatch texts s).1 = (p.embedBatch texts s').1 ∧
    same (p.embedBatch texts s).2 (p.embedBatch texts s').2

theorem Provider.indistinguishable_eq (p : Provider σ) : p.Indistinguishable (· = ·) := by
  rintro s _ rfl texts
  exact ⟨rfl, rfl⟩

/-- The worlds of two runs in lockstep. -/
structure Beside (disks : Disk → Disk → Prop) (same : σ → σ → Prop) (w w' : World σ) : Prop where
  disk : disks w.disk w'.disk
  provider : same w.provider w'.provider
  events : w.events = w'.events
  checks : w.checks = w'.checks

/-- Whoever is told of progress does the same to related disks. -/
def IndexOptions.Keeps (o : IndexOptions) (disks : Disk → Disk → Prop) : Prop :=
  ∀ events p d e, disks d e → disks (o.diskAfter events p d) (o.diskAfter events p e)

theorem IndexOptions.keeps_eq (o : IndexOptions) : o.Keeps (· = ·) := by
  rintro events p d _ rfl
  rfl

theorem IndexOptions.Still.keeps {o : IndexOptions} (still : o.Still) (disks : Disk → Disk → Prop) :
    o.Keeps disks := by
  intro events p d e related
  rwa [still, still]

section Steps

variable {disks : Disk → Disk → Prop} {same : σ → σ → Prop} {options : IndexOptions}

theorem followed_beside (keeps : options.Keeps disks) : Followed options (Beside disks same) where
  events := Beside.events
  checks := Beside.checks
  told := by
    intro w w' worlds p
    refine ⟨?_, worlds.provider, congrArg (· ++ [p]) worlds.events, worlds.checks⟩
    rw [worlds.events]
    exact keeps _ _ _ _ worlds.disk
  checked := fun worlds =>
    ⟨worlds.disk, worlds.provider, worlds.events, congrArg (· + 1) worlds.checks⟩

variable {t : Terms σ} {p : Provider σ} (alike : p.Indistinguishable same)
variable (failing : ∀ w w', Beside disks same w w' → t.failed w w')

include failing in
theorem parallel_throw {α : Type} (e : IndexError) :
    Parallel t (Beside disks same) (Beside disks same) (· = ·) (throw e : Action σ α) (throw e) :=
  fun w w' worlds => .neither (failing w w' worlds)

include alike

theorem parallel_askBatch (texts : List String) :
    Parallel t (Beside disks same) (Beside disks same) (· = ·) (ask (p.embedBatch texts))
      (ask (p.embedBatch texts)) := by
  intro w w' worlds
  have ⟨answers, later⟩ := alike _ _ worlds.provider texts
  exact .both answers ⟨worlds.disk, later, worlds.events, worlds.checks⟩

theorem parallel_askSingle (text : String) :
    Parallel t (Beside disks same) (Beside disks same) (· = ·) (ask (p.embed text))
      (ask (p.embed text)) := by
  intro w w' worlds
  have ⟨answers, later⟩ := alike _ _ worlds.provider [text]
  exact .both (congrArg Provider.single answers)
    ⟨worlds.disk, later, worlds.events, worlds.checks⟩

include failing

theorem parallel_embedSingly (e : Embedded) (queue : List QueuedText) :
    Parallel t (Beside disks same) (Beside disks same) (· = ·) (embedSingly p e queue)
      (embedSingly p e queue) := by
  induction queue generalizing e with
  | nil => exact parallel_pure rfl
  | cons q rest ih =>
    refine (parallel_askSingle alike q.text).bind ?_
    rintro answer _ rfl
    cases answer with
    | ok v => exact ih _
    | error cause =>
      dsimp only
      split
      · exact ih _
      · exact parallel_throw failing _

variable (keeps : options.Keeps disks)

include keeps

theorem parallel_takeIn (e : Embedded) (sent : SentBatch) :
    Parallel t (Beside disks same) (Beside disks same) (· = ·) (takeIn p options e sent)
      (takeIn p options e sent) := by
  refine ((followed_beside keeps).parallel_checkCancelled failing).bind fun _ _ _ => ?_
  cases BatchVerdict.of sent.batch.length sent.answer with
  | accepted vectors => exact parallel_pure rfl
  | rejected => exact parallel_embedSingly alike failing e sent.batch
  | fatal cause => exact parallel_throw failing _

theorem parallel_embedBatches (limit total : Nat) (moves : List Move) (done : Nat) (e : Embedded)
    (flying : List SentBatch) (waiting : List (List QueuedText)) :
    Parallel t (Beside disks same) (Beside disks same) (· = ·)
      (embedBatches p options limit total moves done e flying waiting)
      (embedBatches p options limit total moves done e flying waiting) := by
  fun_induction embedBatches p options limit total moves done e flying waiting with
  | case1 => exact parallel_pure rfl
  | case2 _ _ _ _ _ batch rest _ ih =>
    refine (parallel_askBatch alike _).bind ?_
    rintro answer _ rfl
    exact ih answer
  | case3 _ _ e _ _ sent rest _ ih =>
    refine (parallel_takeIn alike failing keeps e sent).bind ?_
    rintro embedded _ rfl
    exact ((followed_beside keeps).parallel_tell _).bind fun _ _ _ => ih embedded

theorem parallel_embedQueue (batchSize concurrency : Nat) (moves : List Move)
    (queue : List QueuedText) :
    Parallel t (Beside disks same) (Beside disks same) (· = ·)
      (embedQueue p options batchSize concurrency moves queue)
      (embedQueue p options batchSize concurrency moves queue) := by
  rw [embedQueue]
  split
  · exact parallel_pure rfl
  · exact ((followed_beside keeps).parallel_tell _).bind fun _ _ _ =>
      parallel_embedBatches alike failing keeps _ _ _ _ _ _ _

end Steps

section Runs

/-- The worlds differ in what the provider remembers only. -/
abbrev BesideProvider (same : σ → σ → Prop) : World σ → World σ → Prop := Beside (· = ·) same

/-- Both runs fail in lockstep. -/
def lockstep (same : σ → σ → Prop) : Terms σ := { failed := BesideProvider same }

variable {same : σ → σ → Prop}

theorem parallel_changeDisk_beside (change : Disk → Except DiskError Disk) :
    Parallel (lockstep same) (BesideProvider same) (BesideProvider same) (· = ·)
      (changeDisk change) (changeDisk change) := by
  intro w w' worlds
  rw [run_changeDisk, run_changeDisk, worlds.disk]
  cases change w'.disk with
  | ok d => exact .both rfl ⟨rfl, worlds.provider, worlds.events, worlds.checks⟩
  | error e => exact .neither worlds

theorem parallel_persist_beside (s : Session σ) (t : IndexState) (m : Manifest) :
    Parallel (lockstep same) (BesideProvider same) (BesideProvider same) (· = ·)
      (s.persist t m) (s.persist t m) := by
  refine (parallel_changeDisk_beside _).bind fun _ _ _ => ?_
  induction t.documents m with
  | nil => exact parallel_pure rfl
  | cons first documents ih =>
    exact ((parallel_changeDisk_beside _).bind fun _ _ _ =>
      parallel_changeDisk_beside _).bind fun _ _ _ => ih

variable {s : Session σ} (alike : s.provider.Indistinguishable same) (outside : Surroundings)
variable (options : IndexOptions)

include alike

theorem parallel_update_beside (base : IndexState) (rebuilt : Bool) (diff : FileDiff) :
    Parallel (lockstep same) (BesideProvider same) (BesideProvider same) (· = ·)
      (s.update outside options base rebuilt diff)
      (s.update outside options base rebuilt diff) := by
  have followed : Followed options (BesideProvider same) := followed_beside options.keeps_eq
  have cut (w w' : World σ) (worlds : BesideProvider same w w') (path : String)
      (_ : path ∈ diff.toProcess) :
      s.cutFile outside.parse w.disk path = s.cutFile outside.parse w'.disk path := by
    rw [worlds.disk]
  have plan {d d' : Draft} (equal : d = d') (f : CutFile) : (d.planFile base f).1 =
      (d'.planFile base f).1 ∧ (d.planFile base f).2 = (d'.planFile base f).2 := by
    rw [equal]
    exact ⟨rfl, rfl⟩
  refine (Session.parallel_planFiles_of_followed followed (fun _ _ => id) _ cut plan rfl 0
    _).bind ?_
  rintro ⟨draft, plans⟩ ⟨_, _⟩ ⟨equal, equal_plans⟩
  cases equal
  cases equal_plans
  refine (followed.parallel_checkCancelled fun _ _ => id).bind fun _ _ _ => ?_
  refine (parallel_embedQueue alike (fun _ _ => id) options.keeps_eq _ _ _ _).bind ?_
  rintro embedded _ rfl
  refine (parallel_ofExcept (fun _ _ => id) (agree_self (fun _ => rfl) _)).bind ?_
  rintro applied _ rfl
  refine (followed.parallel_checkCancelled fun _ _ => id).bind fun _ _ _ => ?_
  refine (followed.parallel_tell _).bind fun _ _ _ => ?_
  exact (Session.parallel_writeOut (fun _ _ => id) rfl rfl
    (parallel_persist_beside s applied.state _)).bind fun _ _ _ => parallel_pure rfl

theorem parallel_bringUpToDate_beside :
    Parallel (lockstep same) (BesideProvider same) (BesideProvider same) (· = ·)
      (s.bringUpToDate outside options) (s.bringUpToDate outside options) := by
  have followed : Followed options (BesideProvider same) := followed_beside options.keeps_eq
  refine parallel_get.bind fun w w' worlds => ?_
  rw [worlds.disk]
  refine (parallel_ofExcept (fun _ _ => id) (agree_self (fun _ => rfl) _)).bind ?_
  rintro ⟨base, rebuilt⟩ _ rfl
  refine (followed.parallel_checkCancelled fun _ _ => id).bind fun _ _ _ => ?_
  refine (followed.parallel_tell _).bind fun _ _ _ => ?_
  refine parallel_get.bind fun v v' worlds => ?_
  rw [worlds.disk]
  refine (parallel_ofExcept (fun _ _ => id) (agree_self (fun _ => rfl) _)).bind ?_
  rintro current _ rfl
  refine (followed.parallel_tell _).bind fun _ _ _ => ?_
  dsimp only
  split
  · exact parallel_pure rfl
  · exact parallel_update_beside alike outside options base rebuilt _

/-- Runs of one session in worlds that differ in what the provider remembers only. -/
theorem Session.index_beside {w w' : World σ} (disk : w.disk = w'.disk)
    (provider : same w.provider w'.provider) :
    (s.index outside options w).1 = (s.index outside options w').1 ∧
      (s.index outside options w).2.1 = (s.index outside options w').2.1 ∧
      BesideProvider same (s.index outside options w).2.2 (s.index outside options w').2.2 := by
  have ended := parallel_bringUpToDate_beside alike outside options
    { w with events := [], checks := 0 } { w' with events := [], checks := 0 }
    ⟨disk, provider, rfl, rfl⟩
  rw [index_eq_conclude, index_eq_conclude]
  generalize run (s.bringUpToDate outside options) _ = left at ended
  generalize run (s.bringUpToDate outside options) _ = right at ended
  cases ended with
  | both equal worlds =>
    subst equal
    exact ⟨rfl, rfl, worlds⟩
  | neither worlds => exact ⟨rfl, rfl, worlds⟩
  | alone may => exact may.elim

end Runs

end Lookalike
