import Lookalike.Proofs.Index.Alike
import Lookalike.Proofs.Index.History

/-!
# Sessions that remember and sessions that read

A session that has an index in memory is coherent with a disk if reading the documents there gives a
state that is alike. Such a session does what a new one of the same root does that has yet to read
them: a run has the same result and leaves the same world, and loading gives the same answers. A run
leaves the session coherent with the disk that it leaves, if nobody else touches the documents and
what it writes is read back.
-/

namespace Lookalike

open IndexContents (Within)

namespace Action

variable {σ α : Type}

/-- Two actions that do the same to one world, whether they fail or not. -/
def inStep : Terms σ := { failed := (· = ·) }

theorem parallel_self (x : Action σ α) : Parallel inStep (· = ·) (· = ·) (· = ·) x x := by
  rintro w _ rfl
  generalize run x w = ended
  obtain ⟨e | a, v⟩ := ended
  · exact .neither rfl
  · exact .both rfl rfl

end Action

namespace Session

open Action

variable {σ : Type} {s : Session σ} {d : Disk}

/-- What the session has in memory is alike what is read on the disk. -/
def Coherent (s : Session σ) (d : Disk) : Prop :=
  s.loaded → ∃ u, IndexState.read s.folder (s.contents d) = .ok u ∧ s.state.Alike u

/-- A new session with the same root, provider and configuration. -/
def renewed (s : Session σ) : Session σ := .new s.root s.provider s.settings

theorem coherent_of_unloaded (unread : s.loaded = false) : s.Coherent d := by
  intro loaded
  rw [unread] at loaded
  cases loaded

theorem Coherent.within {e : Disk} (c : s.Coherent d)
    (kept : Within (s.contents d) (s.contents e)) : s.Coherent e := by
  intro loaded
  obtain ⟨u, read, alike⟩ := c loaded
  exact ⟨u, IndexState.read_within kept read, alike⟩

/-- A coherent session is loaded if a new one can be, and is then alike. -/
theorem Coherent.agree_ensureLoaded (c : s.Coherent d) :
    Agree Alike (s.ensureLoaded d) (s.renewed.ensureLoaded d) := by
  have again : s.renewed.ensureLoaded d = (IndexState.read s.folder (s.contents d)).map
      fun state => { s.renewed with state, loaded := true } := rfl
  rw [again, ensureLoaded]
  split
  next loaded =>
    obtain ⟨u, read, alike⟩ := c loaded
    rw [read]
    exact .ok ⟨rfl, rfl, rfl, alike⟩
  next =>
    cases IndexState.read s.folder (s.contents d) with
    | error e => exact .error e
    | ok state => exact .ok ⟨rfl, rfl, rfl, .refl state⟩

/-- A session that is loaded has what it had, or what it has read. -/
theorem ensureLoaded_ok {t : Session σ} (h : s.ensureLoaded d = .ok t) :
    t = s ∨ ∃ state, IndexState.read s.folder (s.contents d) = .ok state ∧
      t = { s with state, loaded := true } := by
  rw [ensureLoaded] at h
  split at h
  next =>
    cases h
    exact .inl rfl
  next =>
    cases read : IndexState.read s.folder (s.contents d) with
    | error e =>
      rw [read] at h
      cases h
    | ok state =>
      rw [read] at h
      cases h
      exact .inr ⟨state, rfl, rfl⟩

theorem Coherent.ensureLoaded (c : s.Coherent d) {t : Session σ} (h : s.ensureLoaded d = .ok t) :
    t.Coherent d := by
  rcases ensureLoaded_ok h with rfl | ⟨state, read, rfl⟩
  · exact c
  · exact fun _ => ⟨state, read, .refl state⟩

section Runs

variable {outside : Surroundings} {options : IndexOptions}

/-- What is in memory and what is read are prepared alike. -/
theorem Coherent.agree_prepare (c : s.Coherent d) (force : Bool) :
    Agree (fun x y => x.1.Alike y.1 ∧ x.2 = y.2) (s.prepare d force)
      (s.renewed.prepare d force) := by
  cases loaded : s.loaded with
  | false =>
    have same : s.prepare d force = s.renewed.prepare d force := by
      simp only [prepare, currentManifest, loaded, renewed, new, Bool.false_eq_true, if_false]
      rfl
    rw [same]
    exact agree_self (fun x => ⟨.refl x.1, rfl⟩) _
  | true =>
    -- The manifest in memory is the one that was accepted, so both go the same way.
    obtain ⟨u, read, alike⟩ := c loaded
    obtain ⟨m, at_manifest, accepted⟩ := IndexState.read_ok.mp read
    have known : s.state.manifest = some m := alike.manifest.symm.trans accepted.manifest
    have here : s.currentManifest d = .ok (some m) := by
      rw [currentManifest, if_pos loaded, known]
    have there : s.renewed.currentManifest d = .ok (some m) := by
      have at_manifest : (s.renewed.contents d).manifest s.renewed.folder = .ok m := at_manifest
      rw [currentManifest, at_manifest]
      rfl
    have stores : IndexState.readStores s.renewed.folder (s.renewed.contents d) m = .ok u :=
      IndexState.readStores_ok.mpr accepted
    have unread : s.renewed.loaded = false := rfl
    have provider : s.renewed.provider = s.provider := rfl
    cases force with
    | true => exact .ok ⟨.refl _, rfl⟩
    | false =>
      simp only [prepare, here, there, loaded, unread, provider, bind, Except.bind, stores,
        Bool.false_eq_true, if_true, if_false]
      cases m.checkCompatible s.provider.model s.provider.dimension with
      | ok => exact .ok ⟨alike, rfl⟩
      | error e =>
        cases e with
        | incompatibleIndex => exact .ok ⟨.refl _, rfl⟩
        | _ => exact .error _

theorem nextManifest_renewed {t u : IndexState} (alike : t.Alike u) (rebuilt : Bool)
    (now : Timestamp) : s.renewed.nextManifest u rebuilt now = s.nextManifest t rebuilt now := by
  simp only [nextManifest, alike.table, alike.manifest, alike.files, alike.catalogue.size]
  rfl

/-- A state that is alike is written in the same way. -/
theorem writeOut_renewed {t u : IndexState} (alike : t.Alike u) (m : Manifest) :
    s.renewed.writeOut u m = s.writeOut t m := by
  simp only [writeOut, persist, alike.documents, alike.catalogue.size, alike.table]
  rfl

theorem withTotals_alike {t u : IndexState} (alike : t.Alike u) (report : IndexReport) :
    withTotals report u = withTotals report t := by
  simp only [withTotals, alike.catalogue.size, alike.files]

/-- Updates that start from states that are alike go in step. -/
theorem parallel_update_renewed {base other : IndexState} (alike : base.Alike other)
    (rebuilt : Bool) (diff : FileDiff) :
    Parallel inStep (· = ·) (· = ·) (fun x y => x.1.Alike y.1 ∧ x.2 = y.2)
      (s.update outside options base rebuilt diff)
      (s.renewed.update outside options other rebuilt diff) := by
  have cut (d : Disk) (path : String) :
      s.cutFile outside.parse d path = s.renewed.cutFile outside.parse d path := rfl
  have start : Draft.Alike
      (diff.deleted.foldl Draft.forgetFile ⟨base, reportOf diff rebuilt⟩)
      (diff.deleted.foldl Draft.forgetFile ⟨other, reportOf diff rebuilt⟩) := by
    refine Draft.Alike.foldl (fun related => related.forgetFile) ?_ diff.deleted
    exact ⟨alike, rfl⟩
  refine (parallel_planFiles (t := inStep) observed_eq (fun _ _ same => same) Draft.Alike cut
    (fun related f => related.planFile alike f) start 0 _ _).bind ?_
  rintro ⟨draft, plans⟩ ⟨other, _⟩ ⟨drafts, rfl⟩
  refine (parallel_self _).bind fun _ _ _ => ?_
  refine (parallel_self _).bind ?_
  rintro embedded _ rfl
  refine (parallel_ofExcept (fun _ _ same => same) (drafts.applyPlans plans)).bind ?_
  intro t u applied
  refine (parallel_self _).bind fun _ _ _ => ?_
  refine (parallel_self _).bind fun _ _ _ => ?_
  rw [nextManifest_renewed applied.state]
  dsimp only
  rw [writeOut_renewed applied.state]
  refine (parallel_self _).bind fun _ _ _ => parallel_pure ⟨applied.state.withManifest _, ?_⟩
  rw [withTotals_alike applied.state, applied.report]

/-- A coherent session and a new one go in step. -/
theorem Coherent.parallel_bringUpToDate (c : s.Coherent d) :
    Parallel inStep (fun w w' => w = w' ∧ w.disk = d) (· = ·)
      (fun x y => x.1.Alike y.1 ∧ x.2 = y.2) (s.bringUpToDate outside options)
      (s.renewed.bringUpToDate outside options) := by
  refine parallel_get.bind ?_
  rintro w _ ⟨rfl, rfl⟩
  refine (parallel_ofExcept (fun _ _ same => same.1) (c.agree_prepare options.force)).bind ?_
  rintro ⟨base, rebuilt⟩ ⟨other, _⟩ ⟨alike, rfl⟩
  -- The session matters no more until the diff: the steps are the same on both sides.
  have same : Parallel inStep (fun v v' => v = v' ∧ v.disk = w.disk) (· = ·) (· = ·)
      (checkCancelled options : Action σ Unit) (checkCancelled options) :=
    fun v v' related => parallel_self _ v v' related.1
  refine same.bind fun _ _ _ => ?_
  refine (parallel_self _).bind fun _ _ _ => ?_
  refine (parallel_self _).bind ?_
  rintro v _ rfl
  refine (parallel_self _).bind ?_
  rintro current _ rfl
  refine (parallel_self _).bind fun _ _ _ => ?_
  dsimp only
  rw [alike.files, alike.manifest]
  split
  · exact parallel_pure ⟨alike, (withTotals_alike alike _).symm⟩
  · exact parallel_update_renewed alike rebuilt _

/-- A run of a coherent session has the result of a run of a new one, and leaves the same world. -/
theorem Coherent.index_eq {w : World σ} (c : s.Coherent w.disk) (outside : Surroundings)
    (options : IndexOptions) :
    (s.index outside options w).1 = (s.renewed.index outside options w).1 ∧
      (s.index outside options w).2.2 = (s.renewed.index outside options w).2.2 := by
  have inStep : Parallel _ _ _ _ (s.bringUpToDate outside options)
      (s.renewed.bringUpToDate outside options) := c.parallel_bringUpToDate
  have ended := inStep { w with events := [], checks := 0 } _ ⟨rfl, rfl⟩
  rw [index_eq_conclude, index_eq_conclude]
  generalize run (s.bringUpToDate outside options) _ = left at ended
  generalize run (s.renewed.bringUpToDate outside options) _ = right at ended
  cases ended with
  | both results worlds => exact ⟨congrArg Except.ok results.2, worlds⟩
  | neither worlds => exact ⟨rfl, worlds⟩
  | alone may => exact may.elim

end Runs

end Session

namespace Attempt

variable {σ : Type} {a : Attempt σ}

/-- A run leaves a coherent session coherent. Others leave the documents alone, a failure to write
leaves them as they were, and what a run writes that succeeds is read back. -/
theorem coherent_after (c : a.session.Coherent a.world.disk)
    (spared : ∀ d, a.options.Reaches a.world.disk d →
      Within (a.session.contents a.world.disk) (a.session.contents d))
    (whole : a.result = .error .io →
      Within (a.session.contents a.world.disk) (a.session.contents a.after.world.disk))
    (readBack : a.result.isOk → a.Writes →
      ∃ u, a.after.stored = .ok u ∧ a.after.session.state.Alike u) :
    a.after.session.Coherent a.after.world.disk := by
  cases ended : a.result with
  | error e =>
    obtain ⟨⟨phase, same⟩, at_end⟩ := Session.index_error (Attempt.eq_of_result ended)
    have kept : Within (a.session.contents a.world.disk)
        (a.session.contents a.after.world.disk) := by
      cases at_end with
      | way reached => exact spared _ reached
      | stopped _ _ _ _ _ _ _ _ _ reached => exact spared _ reached
      | writing _ _ _ _ _ _ _ _ _ _ _ failed =>
        cases Session.persist_error failed
        exact whole ended
    rw [same]
    exact c.within kept
  | ok report =>
    obtain ⟨state, base, rebuilt, current, same, start, outcome⟩ :=
      Session.index_ok (Attempt.eq_of_result ended)
    cases outcome with
    | unchanged _ _ indexed shape _ reached =>
      -- Nothing was written: what is in memory is what was there at the outset.
      rw [same, shape]
      have kept := spared _ reached
      cases (Session.outset_ok start).1 with
      | nothing => simp [IndexState.ofDimension] at indexed
      | state m loaded =>
        obtain ⟨u, read, alike⟩ := c loaded
        exact fun _ => ⟨u, IndexState.read_within kept read, alike⟩
      | stored m _ _ _ read => exact fun _ => ⟨base, IndexState.read_within kept read, .refl base⟩
    | updated _ _ _ _ _ writes _ _ _ _ =>
      exact fun _ => readBack (by rw [ended]; rfl) ⟨base, rebuilt, current, start, writes⟩

end Attempt

end Lookalike
