import Lookalike.Proofs.Index.Run

/-!
# Two runs side by side

Two actions are compared step by step: from related worlds both succeed with related results and
leave related worlds, or both fail for the same cause. Where the comparison allows it, one of them
may also fail alone, and nothing is said of what the other one does then. Actions that follow each
other are compared one after the other, and the relation of the worlds may become weaker on the way.
-/

namespace Lookalike

section Results

variable {α β γ δ : Type} {alike : α → β → Prop} {similar : γ → δ → Prop}

/-- Two results of the same sort, with related values or with one cause of failure. -/
inductive Agree (alike : α → β → Prop) : Except IndexError α → Except IndexError β → Prop
  | ok {a : α} {b : β} (related : alike a b) : Agree alike (.ok a) (.ok b)
  | error (e : IndexError) : Agree alike (.error e) (.error e)

theorem Agree.bind {x : Except IndexError α} {y : Except IndexError β}
    {f : α → Except IndexError γ} {g : β → Except IndexError δ} (first : Agree alike x y)
    (rest : ∀ a b, alike a b → Agree similar (f a) (g b)) : Agree similar (x >>= f) (y >>= g) := by
  cases first with
  | ok related => exact rest _ _ related
  | error e => exact .error e

theorem agree_self {alike : α → α → Prop} (own : ∀ a, alike a a) (x : Except IndexError α) :
    Agree alike x x := by
  cases x with
  | ok a => exact .ok (own a)
  | error e => exact .error e

end Results

namespace Action

variable {σ α β γ δ : Type}

/-- The terms of a comparison: how the worlds are related when both actions fail, and whether one
may fail alone. -/
structure Terms (σ : Type) where
  failed : World σ → World σ → Prop
  alone : Prop := False

variable {t : Terms σ} {before middle after : World σ → World σ → Prop} {alike : α → β → Prop}
  {similar : γ → δ → Prop}

/-- How two actions end side by side. -/
inductive Ends (t : Terms σ) (after : World σ → World σ → Prop) (alike : α → β → Prop) :
    Except IndexError α × World σ → Except IndexError β × World σ → Prop
  | both {a : α} {b : β} {v v' : World σ} (results : alike a b) (worlds : after v v') :
      Ends t after alike (.ok a, v) (.ok b, v')
  | neither {e : IndexError} {v v' : World σ} (worlds : t.failed v v') :
      Ends t after alike (.error e, v) (.error e, v')
  | alone {x : Except IndexError α × World σ} {y : Except IndexError β × World σ} (may : t.alone)
      (failed : x.1.isOk = false ∨ y.1.isOk = false) : Ends t after alike x y

/-- From related worlds two actions end side by side. -/
def Parallel (t : Terms σ) (before after : World σ → World σ → Prop) (alike : α → β → Prop)
    (x : Action σ α) (y : Action σ β) : Prop :=
  ∀ w w', before w w' → Ends t after alike (run x w) (run y w')

theorem isOk_run_bind {x : Action σ α} {f : α → Action σ β} {w : World σ}
    (failed : (run x w).1.isOk = false) : (run (x >>= f) w).1.isOk = false := by
  rw [run_bind]
  generalize run x w = ended at failed
  obtain ⟨_ | _, _⟩ := ended
  · rfl
  · cases failed

/-- Actions one after the other are compared one after the other. -/
theorem Parallel.bind {x : Action σ α} {y : Action σ β} {f : α → Action σ γ} {g : β → Action σ δ}
    (first : Parallel t before middle alike x y)
    (rest : ∀ a b, alike a b → Parallel t middle after similar (f a) (g b)) :
    Parallel t before after similar (x >>= f) (y >>= g) := by
  intro w w' related
  have ended := first w w' related
  by_cases lonely : t.alone ∧ ((run x w).1.isOk = false ∨ (run y w').1.isOk = false)
  · exact .alone lonely.1 (lonely.2.imp isOk_run_bind isOk_run_bind)
  · rw [run_bind, run_bind]
    generalize run x w = left at ended lonely
    generalize run y w' = right at ended lonely
    cases ended with
    | both results worlds => exact rest _ _ results _ _ worlds
    | neither worlds => exact .neither worlds
    | alone may failed => exact absurd ⟨may, failed⟩ lonely

theorem Parallel.imp {others : α → β → Prop} {later : World σ → World σ → Prop} {x : Action σ α}
    {y : Action σ β} (h : Parallel t before after alike x y)
    (results : ∀ a b, alike a b → others a b) (worlds : ∀ w w', after w w' → later w w') :
    Parallel t before later others x y := by
  intro w w' related
  have ended := h w w' related
  generalize run x w = left at ended
  generalize run y w' = right at ended
  cases ended with
  | both found there => exact .both (results _ _ found) (worlds _ _ there)
  | neither there => exact .neither there
  | alone may failed => exact .alone may failed

theorem parallel_pure {a : α} {b : β} (related : alike a b) :
    Parallel t before before alike (pure a) (pure b) :=
  fun _ _ worlds => .both related worlds

theorem parallel_ofExcept (failing : ∀ w w', before w w' → t.failed w w')
    {x : Except IndexError α} {y : Except IndexError β} (agree : Agree alike x y) :
    Parallel t before before alike (ofExcept x) (ofExcept y) := by
  intro w w' worlds
  rw [run_ofExcept, run_ofExcept]
  cases agree with
  | ok related => exact .both related worlds
  | error e => exact .neither (failing w w' worlds)

theorem parallel_get : Parallel t before before before (get : Action σ (World σ)) get :=
  fun _ _ worlds => .both worlds worlds

section Observing

/-- Related worlds look the same to a run, except for the provider, and stay so when the same
happens in both. -/
structure Observed (related : World σ → World σ → Prop) : Prop where
  disk : ∀ {w w'}, related w w' → w.disk = w'.disk
  events : ∀ {w w'}, related w w' → w.events = w'.events
  checks : ∀ {w w'}, related w w' → w.checks = w'.checks
  change : ∀ {w w'}, related w w' → ∀ d es n, related
    { w with disk := d, events := es, checks := n } { w' with disk := d, events := es, checks := n }

/-- The worlds of two runs that have told the same and see one disk. -/
structure SameView (w w' : World σ) : Prop where
  disk : w.disk = w'.disk
  events : w.events = w'.events
  checks : w.checks = w'.checks

theorem observed_sameView : Observed (SameView (σ := σ)) where
  disk := SameView.disk
  events := SameView.events
  checks := SameView.checks
  change := fun _ _ _ _ => ⟨rfl, rfl, rfl⟩

theorem observed_eq : Observed fun w w' : World σ => w = w' where
  disk := congrArg World.disk
  events := congrArg World.events
  checks := congrArg World.checks
  change := by
    rintro w _ rfl d es n
    rfl

variable {options : IndexOptions}

/-- Related worlds have told and checked as much, and stay so when they go on with these options.
Their disks need not be the same. -/
structure Followed (options : IndexOptions) (related : World σ → World σ → Prop) : Prop where
  events : ∀ {w w'}, related w w' → w.events = w'.events
  checks : ∀ {w w'}, related w w' → w.checks = w'.checks
  told : ∀ {w w'}, related w w' → ∀ p : Progress, related
    { w with disk := options.diskAfter w.events.length p w.disk, events := w.events ++ [p] }
    { w' with disk := options.diskAfter w'.events.length p w'.disk, events := w'.events ++ [p] }
  checked : ∀ {w w'}, related w w' → related
    { w with checks := w.checks + 1 } { w' with checks := w'.checks + 1 }

theorem Observed.followed {related : World σ → World σ → Prop} (observed : Observed related) :
    Followed options related where
  events := observed.events
  checks := observed.checks
  told := by
    intro w w' worlds p
    rw [observed.disk worlds, observed.events worlds]
    have changed := observed.change worlds
      (options.diskAfter w'.events.length p w'.disk) (w'.events ++ [p]) w.checks
    rwa [observed.checks worlds] at changed ⊢
  checked := by
    intro w w' worlds
    have counted := observed.change worlds w.disk w.events (w.checks + 1)
    rwa [observed.disk worlds, observed.events worlds, observed.checks worlds] at counted ⊢

theorem Followed.parallel_tell (followed : Followed options before) (p : Progress) :
    Parallel t before before (· = ·) (tell options p : Action σ Unit) (tell options p) := by
  intro w w' worlds
  rw [run_tell, run_tell]
  exact .both rfl (followed.told worlds p)

theorem Followed.parallel_checkCancelled (followed : Followed options before)
    (failing : ∀ w w', before w w' → t.failed w w') :
    Parallel t before before (· = ·) (checkCancelled options : Action σ Unit)
      (checkCancelled options) := by
  intro w w' worlds
  have counted := followed.checked worlds
  have stops : options.stopsAt w'.events.length w'.checks =
      options.stopsAt w.events.length w.checks := by
    rw [followed.events worlds, followed.checks worlds]
  rw [run_checkCancelled, run_checkCancelled, stops]
  split
  · exact .neither (failing _ _ counted)
  · exact .both rfl counted

variable (observed : Observed before) (failing : ∀ w w', before w w' → t.failed w w')

include observed

theorem parallel_tell (p : Progress) :
    Parallel t before before (· = ·) (tell options p : Action σ Unit) (tell options p) :=
  observed.followed.parallel_tell p

include failing

theorem parallel_checkCancelled :
    Parallel t before before (· = ·) (checkCancelled options : Action σ Unit)
      (checkCancelled options) :=
  observed.followed.parallel_checkCancelled failing

end Observing

end Action

namespace Session

open Action

variable {σ : Type} {t : Terms σ} {related : World σ → World σ → Prop} {options : IndexOptions}

/-- Files that are cut alike are planned alike, where planning a single file keeps the drafts
related and makes the same plan. -/
theorem parallel_planFiles_of_followed (followed : Followed options related)
    (failing : ∀ w w', related w w' → t.failed w w') {s s' : Session σ}
    {outside outside' : Surroundings} {base base' : IndexState} (drafts : Draft → Draft → Prop)
    {paths : List String} (cut : ∀ w w', related w w' → ∀ path ∈ paths,
      s.cutFile outside.parse w.disk path = s'.cutFile outside'.parse w'.disk path)
    (plan : ∀ {d d'}, drafts d d' → ∀ f, drafts (d.planFile base f).1 (d'.planFile base' f).1 ∧
      (d.planFile base f).2 = (d'.planFile base' f).2) {d d' : Draft} (start : drafts d d')
    (done total : Nat) :
    Parallel t related related (fun x y => drafts x.1 y.1 ∧ x.2 = y.2)
      (s.planFiles outside options base done total d paths)
      (s'.planFiles outside' options base' done total d' paths) := by
  induction paths generalizing done d d' with
  | nil => exact parallel_pure ⟨start, rfl⟩
  | cons path rest ih =>
    refine (followed.parallel_checkCancelled failing).bind fun _ _ _ => ?_
    refine (followed.parallel_tell _).bind fun _ _ _ => ?_
    refine parallel_get.bind fun w w' worlds => ?_
    rw [cut w w' worlds path List.mem_cons_self]
    dsimp only
    have step := plan start (s'.cutFile outside'.parse w'.disk path)
    generalize d.planFile base (s'.cutFile outside'.parse w'.disk path) = made at step ⊢
    generalize d'.planFile base' (s'.cutFile outside'.parse w'.disk path) = made' at step ⊢
    obtain ⟨e, p⟩ := made
    obtain ⟨e', p'⟩ := made'
    obtain ⟨planned, rfl⟩ := step
    have rest_cut (w w' : World σ) (worlds : related w w') (other : String)
        (later : other ∈ rest) := cut w w' worlds other (List.mem_cons_of_mem path later)
    refine (ih rest_cut planned (done + 1)).bind fun x y ended => ?_
    exact parallel_pure ⟨ended.1, congrArg (List.cons p) ended.2⟩

theorem parallel_planFiles (observed : Observed related)
    (failing : ∀ w w', related w w' → t.failed w w') {s s' : Session σ}
    {outside outside' : Surroundings} {base base' : IndexState} (drafts : Draft → Draft → Prop)
    (cut : ∀ d path, s.cutFile outside.parse d path = s'.cutFile outside'.parse d path)
    (plan : ∀ {d d'}, drafts d d' → ∀ f, drafts (d.planFile base f).1 (d'.planFile base' f).1 ∧
      (d.planFile base f).2 = (d'.planFile base' f).2) {d d' : Draft} (start : drafts d d')
    (done total : Nat) (paths : List String) :
    Parallel t related related (fun x y => drafts x.1 y.1 ∧ x.2 = y.2)
      (s.planFiles outside options base done total d paths)
      (s'.planFiles outside' options base' done total d' paths) := by
  refine parallel_planFiles_of_followed observed.followed failing drafts ?_ plan start done total
  intro w w' worlds path _
  rw [observed.disk worlds, cut]

/-- States with as many entries are written side by side, or both runs are stopped. -/
theorem parallel_writeOut {after : World σ → World σ → Prop}
    (failing : ∀ w w', related w w' → t.failed w w') {s s' : Session σ} {u v : IndexState}
    {m n : Manifest} (chunks : u.catalogue.size = v.catalogue.size)
    (vectors : u.table.size = v.table.size)
    (persists : Parallel t related after (· = ·) (s.persist u m) (s'.persist v n)) :
    Parallel t related after (· = ·) (s.writeOut u m) (s'.writeOut v n) := by
  intro w w' worlds
  rw [run_writeOut, run_writeOut, chunks, vectors]
  split
  · exact persists w w' worlds
  · exact .neither (failing w w' worlds)

/-- What becomes of a session at the end of a run. -/
def conclude (s : Session σ) : Except IndexError (IndexState × IndexReport) × World σ →
    Except IndexError IndexReport × Session σ × World σ
  | (.ok (state, report), w) => (.ok report, { s with state, loaded := true, phase := .idle }, w)
  | (.error e, w) => (.error e, { s with phase := phaseAfter e }, w)

theorem index_eq_conclude (s : Session σ) (outside : Surroundings) (options : IndexOptions)
    (w : World σ) : s.index outside options w = s.conclude
      (run (s.bringUpToDate outside options) { w with events := [], checks := 0 }) := rfl

theorem isOk_conclude (s : Session σ)
    (ended : Except IndexError (IndexState × IndexReport) × World σ) :
    (s.conclude ended).1.isOk = ended.1.isOk := by
  rcases ended with ⟨_ | ⟨_, _⟩, _⟩ <;> rfl

theorem conclude_error (s : Session σ)
    (ended : Except IndexError (IndexState × IndexReport) × World σ) (e : IndexError) :
    (s.conclude ended).2.2 = ended.2 ∧ ((s.conclude ended).1 = .error e ↔ ended.1 = .error e) := by
  rcases ended with ⟨cause | ⟨_, _⟩, _⟩
  · exact ⟨rfl, by simp only [conclude, Except.error.injEq]⟩
  · exact ⟨rfl, iff_of_false nofun nofun⟩

end Session

end Lookalike
