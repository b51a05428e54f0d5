import Lookalike.Proofs.Index.Coherence
import Lookalike.Proofs.Index.Lockstep
import Lookalike.Proofs.Index.Synchronisation

/-!
# Runs that fail before they write

A run tells that it writes before it writes, and once it writes it can only fail because of the
disk. So a run that fails for another cause, or before it has told so, leaves the disk to others and
the session as it was, but for the phase that it shows. Whatever is run next goes as if the failed
run had not been.
-/

namespace Lookalike

namespace Action

variable {σ α β : Type} {options : IndexOptions}

/-- The action leaves the disk to others, or it has told that it writes and can only fail in that.
-/
def Announced (options : IndexOptions) (x : Action σ α) : Prop :=
  ∀ w r w', run x w = (r, w') → options.Reaches w.disk w'.disk ∨
    (∃ p ∈ w'.events, p.phase = .persisting) ∧ ∀ e, r = .error e → e = .io

theorem Passive.announced {x : Action σ α} (passive : Passive options x) : Announced options x :=
  fun w r w' h => .inl (passive w r w' h).reached

theorem announced_bind {x : Action σ α} {f : α → Action σ β} (first : Passive options x)
    (rest : ∀ a, Announced options (f a)) : Announced options (x >>= f) := by
  intro w r w' h
  rcases run_bind_result h with ⟨e, failed, _⟩ | ⟨a, v, succeeded, later⟩
  · exact .inl (first w _ w' failed).reached
  · rcases rest a v r w' later with reached | writing
    · exact .inl ((first w _ v succeeded).reached.trans reached)
    · exact .inr writing

theorem announced_of_tell {f : Unit → Action σ β} {p : Progress} (writing : p.phase = .persisting)
    (writes : ∀ w r w', run (f ()) w = (r, w') →
      w'.disk = w.disk ∨ w'.events = w.events ∧ ∀ e, r = .error e → e = .io) :
    Announced options (tell options p >>= f) := by
  intro w r w' h
  obtain ⟨_, v, told, later⟩ :=
    (run_bind_result h).resolve_left fun ⟨_, failed, _⟩ => by cases failed
  have reached := reaches_tell told
  cases told
  rcases writes _ r w' later with same | ⟨events, only⟩
  · exact .inl (same ▸ reached)
  · refine .inr ⟨⟨p, ?_, writing⟩, only⟩
    rw [events]
    exact List.mem_append_right _ List.mem_cons_self

/-- Changing the disk tells nothing and fails only because of the disk. -/
def OnlyWrites (x : Action σ α) : Prop :=
  ∀ w r w', run x w = (r, w') → w'.events = w.events ∧ ∀ e, r = .error e → e = .io

theorem onlyWrites_pure (a : α) : OnlyWrites (pure a : Action σ α) := by
  intro w r w' h
  cases h
  exact ⟨rfl, fun e failed => by cases failed⟩

theorem onlyWrites_changeDisk (change : Disk → Except DiskError Disk) :
    OnlyWrites (changeDisk change : Action σ Unit) := by
  intro w r w' h
  rw [run_changeDisk] at h
  split at h <;> cases h
  · exact ⟨rfl, fun e failed => by cases failed⟩
  · exact ⟨rfl, fun e failed => by cases failed; rfl⟩

theorem OnlyWrites.bind {x : Action σ α} {f : α → Action σ β} (first : OnlyWrites x)
    (rest : ∀ a, OnlyWrites (f a)) : OnlyWrites (x >>= f) := by
  intro w r w' h
  rcases run_bind_result h with ⟨e, failed, rfl⟩ | ⟨a, v, succeeded, later⟩
  · have ⟨events, only⟩ := first w _ w' failed
    exact ⟨events, fun e' same => only e' (by cases same; rfl)⟩
  · have ⟨before, _⟩ := first w _ v succeeded
    have ⟨events, only⟩ := rest a v r w' later
    exact ⟨events.trans before, only⟩

end Action

namespace Session

open Action

variable {σ : Type} (s : Session σ) (outside : Surroundings) (options : IndexOptions)

theorem onlyWrites_persist (t : IndexState) (m : Manifest) : OnlyWrites (s.persist t m) := by
  refine (onlyWrites_changeDisk _).bind fun _ => ?_
  induction t.documents m with
  | nil => exact onlyWrites_pure ()
  | cons first documents ih =>
    exact ((onlyWrites_changeDisk _).bind fun _ => onlyWrites_changeDisk _).bind fun _ => ih

theorem announced_update (base : IndexState) (rebuilt : Bool) (diff : FileDiff) :
    Announced options (s.update outside options base rebuilt diff) := by
  refine announced_bind (passive_planFiles _ _ _ _ _) fun _ => ?_
  refine announced_bind passive_checkCancelled fun _ => ?_
  refine announced_bind (passive_embedQueue _ _ _ _ _) fun _ => ?_
  refine announced_bind (passive_ofExcept _) fun _ => ?_
  refine announced_bind passive_checkCancelled fun _ => ?_
  refine announced_of_tell rfl fun w r w' ended => ?_
  rcases run_bind_result ended with ⟨e, failed, rfl⟩ | ⟨_, v, wrote, finished⟩
  · rw [run_writeOut] at failed
    split at failed
    · have ⟨events, only⟩ := onlyWrites_persist s _ _ _ _ _ failed
      exact .inr ⟨events, fun _ same => only _ (by cases same; rfl)⟩
    · cases failed
      exact .inl rfl
  · have ⟨events, _⟩ := onlyWrites_persist s _ _ _ _ _ (writeOut_ok.mp wrote).2
    cases finished
    exact .inr ⟨events, by nofun⟩

/-- A run tells that it writes before it does, and can only fail in writing then. -/
theorem announced_bringUpToDate : Announced options (s.bringUpToDate outside options) := by
  refine announced_bind passive_get fun _ => ?_
  refine announced_bind (passive_ofExcept _) fun _ => ?_
  refine announced_bind passive_checkCancelled fun _ => ?_
  refine announced_bind (passive_tell (by nofun)) fun _ => ?_
  refine announced_bind passive_get fun _ => ?_
  refine announced_bind (passive_ofExcept _) fun _ => ?_
  refine announced_bind (passive_tell (by nofun)) fun _ => ?_
  dsimp only
  split
  · exact (passive_pure _).announced
  · exact announced_update s outside options _ _ _

section Phases

variable (phase : Phase)

theorem planFiles_of_phase (base : IndexState) (done total : Nat) (d : Draft)
    (paths : List String) : planFiles { s with phase } outside options base done total d paths =
      s.planFiles outside options base done total d paths := by
  induction paths generalizing done d with
  | nil => rfl
  | cons path rest ih =>
    simp only [planFiles, ih]
    rfl

theorem update_of_phase (base : IndexState) (rebuilt : Bool) (diff : FileDiff) :
    update { s with phase } outside options base rebuilt diff =
      s.update outside options base rebuilt diff := by
  simp only [update, planFiles_of_phase]
  rfl

/-- The phase that a session shows does not matter for a run. -/
theorem index_of_phase (w : World σ) :
    Session.index { s with phase } outside options w = s.index outside options w := by
  have same : Session.bringUpToDate { s with phase } outside options =
      s.bringUpToDate outside options := by
    simp only [bringUpToDate, update_of_phase]
    rfl
  rw [index_eq_conclude, index_eq_conclude, same]
  generalize run (s.bringUpToDate outside options) _ = ended
  obtain ⟨_ | ⟨_, _⟩, _⟩ := ended <;> rfl

end Phases

end Session

/-- A document that nobody else touches on the way stays as it is. -/
theorem IndexOptions.Reaches.contents_eq {o : IndexOptions} {folder name : String} {d e : Disk}
    (h : o.Reaches d e) (spared : ∀ events p f, o.Reaches d f →
      IndexContents.ofDisk (o.diskAfter events p f) folder name =
        IndexContents.ofDisk f folder name) :
    IndexContents.ofDisk e folder name = IndexContents.ofDisk d folder name := by
  induction h with
  | start => rfl
  | event events p before ih => rw [spared events p _ before, ih]

namespace Attempt

variable {σ : Type} {a : Attempt σ}

/-- A run that fails before it writes, or not because of the disk, leaves the disk to others. -/
theorem reaches_of_early {e : IndexError} (failed : a.result = .error e)
    (early : e ≠ .io ∨ ∀ p ∈ a.after.world.events, p.phase ≠ .persisting) :
    a.options.Reaches a.world.disk a.after.world.disk := by
  have announced := a.session.announced_bringUpToDate a.outside a.options
    { a.world with events := [], checks := 0 }
  rw [result, Session.index_eq_conclude] at failed
  rw [after, Session.index_eq_conclude] at early ⊢
  generalize Action.run (a.session.bringUpToDate a.outside a.options) _ = ended
    at announced failed early ⊢
  obtain ⟨cause | made, w⟩ := ended
  · cases failed
    rcases announced _ w rfl with reached | ⟨⟨p, told, writing⟩, only⟩
    · exact reached
    · rcases early with other | untold
      · exact absurd (only _ rfl) other
      · exact absurd writing (untold p told)
  · cases failed

/-- A run that fails leaves the session as it was, but for the phase that it shows. -/
theorem after_session_of_error {e : IndexError} (failed : a.result = .error e) :
    a.after.session = { a.session with phase := Session.phaseAfter e } := by
  rw [result, Session.index_eq_conclude] at failed
  rw [after, Session.index_eq_conclude]
  generalize Action.run (a.session.bringUpToDate a.outside a.options) _ = ended at failed ⊢
  obtain ⟨cause | made, w⟩ := ended
  · cases failed
    rfl
  · cases failed

theorem after_state_of_error {e : IndexError} (failed : a.result = .error e) :
    a.after.session.state = a.session.state := by
  rw [after_session_of_error failed]

/-- A run that fails before it writes, or for another cause than the disk, does not show. The disk
is left to others; every document that they leave alone is as it was. The session is as it was, but
for the phase that it shows. What is run next, with any options, has the same result and leaves the
same session and the same disk as if the failed run had not been, if it meets one disk and states of
the provider that cannot be told apart. -/
theorem failed_run_does_not_show {e : IndexError} (failed : a.result = .error e)
    (early : e ≠ .io ∨ ∀ p ∈ a.after.world.events, p.phase ≠ .persisting) :
    a.options.Reaches a.world.disk a.after.world.disk ∧
      (a.options.Still → a.after.world.disk = a.world.disk) ∧
      (∀ name, (∀ events p d, a.options.Reaches a.world.disk d →
          a.session.contents (a.options.diskAfter events p d) name = a.session.contents d name) →
        a.session.contents a.after.world.disk name = a.session.contents a.world.disk name) ∧
      a.after.session = { a.session with phase := Session.phaseAfter e } ∧
      ∀ same : σ → σ → Prop, a.session.provider.Indistinguishable same →
        ∀ (outside : Surroundings) (options : IndexOptions) (w w' : World σ),
          w.disk = w'.disk → same w.provider w'.provider →
          (a.after.session.index outside options w).1 = (a.session.index outside options w').1 ∧
            (a.after.session.index outside options w).2.1 =
              (a.session.index outside options w').2.1 ∧
            (a.after.session.index outside options w).2.2.disk =
              (a.session.index outside options w').2.2.disk ∧
            same (a.after.session.index outside options w).2.2.provider
              (a.session.index outside options w').2.2.provider := by
  have reached := reaches_of_early failed early
  have session := after_session_of_error failed
  refine ⟨reached, reached.eq_of_still, fun name => reached.contents_eq, session, ?_⟩
  intro same alike outside options w w' disk provider
  have ⟨results, sessions, worlds⟩ := Session.index_beside alike outside options disk provider
  rw [session, Session.index_of_phase]
  exact ⟨results, sessions, worlds.disk, worlds.provider⟩

section Sample

/-- A provider that counts its calls and gives one text a longer vector than the others. -/
def unevenProvider : Provider Nat where
  name := "uneven"
  model := "uneven"
  dimension := none
  answer := fun _ texts calls =>
    (.ok (texts.map fun text => if text = "C" then #[1, 2] else #[1]), calls + 1)

/-- The number of calls does not show in the answers. -/
theorem indistinguishable_unevenProvider : unevenProvider.Indistinguishable fun _ _ => True :=
  fun _ _ _ _ => ⟨rfl, trivial⟩

def evenSample : Attempt Nat :=
  { session := .new "/r" unevenProvider { limits := { minSize := 0 } }
    world :=
      { disk := (({} : Disk).withFile "r/x.js" [65]).withFile "r/y.js" [66], provider := 0 }
    outside := sampleSurroundings
    options := {} }

/-- The next run: one file is gone, one is new, and one has got the text with the longer vector. -/
def unevenSample : Attempt Nat :=
  { session := evenSample.after.session
    world :=
      { evenSample.after.world with
        disk := ((evenSample.after.world.disk.removeAt ["r", "x.js"]).withFile "r/w.js"
          [68]).withFile "r/y.js" [67] }
    outside := sampleSurroundings
    options := {} }

/-- The run fails when the new state has lost a file and gained another. The session still has both
chunks of the first run, and a run over any tree has the result that it would have had before. -/
theorem unevenSample_does_not_show :
    unevenSample.result = .error (.dimensionMismatch 1 2) ∧
      unevenSample.after.world.disk = unevenSample.world.disk ∧
      unevenSample.after.session.state = unevenSample.session.state ∧
      unevenSample.session.state.catalogue.size = 2 ∧
      ∀ (disk : Disk) (outside : Surroundings) (options : IndexOptions),
        (unevenSample.after.session.index outside options
          ⟨disk, unevenSample.after.world.provider, [], 0⟩).1 =
        (unevenSample.session.index outside options
          ⟨disk, unevenSample.world.provider, [], 0⟩).1 := by
  have evaluated : unevenSample.result = .error (.dimensionMismatch 1 2) ∧
      unevenSample.session.state.catalogue.size = 2 := by
    decide +kernel
  obtain ⟨failed, both⟩ := evaluated
  have ⟨_, disk_same, _, _, next⟩ := failed_run_does_not_show failed (.inl (by decide))
  have provider : unevenSample.session.provider = unevenProvider :=
    (evenSample.resumed_frame _ _ _).2.1
  rw [provider] at next
  refine ⟨failed, disk_same (IndexOptions.still_of_none rfl), after_state_of_error failed, both,
    ?_⟩
  intro disk outside options
  have following := next _ indistinguishable_unevenProvider outside options
    ⟨disk, unevenSample.after.world.provider, [], 0⟩ ⟨disk, unevenSample.world.provider, [], 0⟩
  exact (following (Eq.refl disk) trivial).1

end Sample

end Attempt

end Lookalike
