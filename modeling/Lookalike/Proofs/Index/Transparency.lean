import Lookalike.Index.Registry
import Lookalike.Proofs.Index.Coherence
import Lookalike.Proofs.Index.Places
import Lookalike.Proofs.Index.Synchronisation

/-!
# The memory of a registry does not show

A registry may forget its sessions at any time: the answers to its calls and the worlds that they
leave are the same, whatever is called in which order and on how many roots. That is so because
every call keeps the sessions coherent with the disk. The calls are assumed to come one after the
other, and nobody else touches the index folders. What a registry does not notice itself is that a
deletion can take the index of another root along: one below the deleted folder or, if the path is
empty and so leads to no root, that of the working folder. So no session may be kept for such a
root.
-/

namespace Lookalike

open IndexContents (Within)
open Disk (Named Spares pathOf)

section Runs

variable {σ : Type}

/-- What is expected of a run: others leave the index folders alone, a failure to write leaves the
documents as they were, and what a run writes that succeeds is read back. -/
structure Attempt.Orderly (a : Attempt σ) : Prop where
  edits : ∀ d, a.options.Reaches a.world.disk d → Spares (fun _ => True) a.world.disk d
  whole : a.result = .error .io →
    Within (a.session.contents a.world.disk) (a.session.contents a.after.world.disk)
  readBack : a.result.isOk → a.Writes →
    ∃ u, a.after.stored = .ok u ∧ a.after.session.state.Alike u

variable {a : Attempt σ} {place : Location}

/-- A run that is orderly keeps a session coherent. -/
theorem Attempt.Orderly.coherent (o : a.Orderly) (named : Named place)
    (root : a.session.root = pathOf place) (c : a.session.Coherent a.world.disk) :
    a.after.session.Coherent a.after.world.disk := by
  refine Attempt.coherent_after c (fun d reached => ?_) o.whole o.readBack
  have spared := (o.edits d reached).documents place named trivial
  rwa [← root] at spared

/-- A run spares the documents of all roots but its own. -/
theorem Attempt.Orderly.spares (o : a.Orderly) (named : Named place)
    (root : a.session.root = pathOf place) :
    Spares (· ≠ place) a.world.disk a.after.world.disk := by
  have edited {d : Disk} (reached : a.options.Reaches a.world.disk d) :
      Spares (· ≠ place) a.world.disk d := (o.edits d reached).imp fun _ _ => trivial
  cases ended : a.result with
  | error e =>
    cases (Session.index_error (Attempt.eq_of_result ended)).2 with
    | way reached => exact edited reached
    | stopped _ _ _ _ _ _ _ _ _ reached => exact edited reached
    | writing _ _ _ _ _ _ _ _ _ _ reached failed =>
      exact (edited reached).trans (Session.spares_persist named root failed)
  | ok report =>
    obtain ⟨_, _, _, _, _, _, outcome⟩ := Session.index_ok (Attempt.eq_of_result ended)
    cases outcome with
    | unchanged _ _ _ _ _ reached => exact edited reached
    | updated _ _ _ _ _ _ _ reached written =>
      exact (edited reached).trans (Session.spares_persist named root written)

end Runs

namespace Registry

/-- What a registry is asked; and others may do something to the world between two calls. -/
inductive Call (σ : Type) where
  | index (path : String) (model : Option String) (outside : Surroundings) (options : IndexOptions)
  | duplicates (nanBits : Nat → UInt32) (path : String) (options : GroupOptions)
  | search (path query : String) (top : Nat) (threshold : Float32)
  | similar (path file : String) (line : UInt64) (top : Nat) (threshold : Float32)
  | stats (path : String)
  | clear
  | delete (path : String)
  | others (change : World σ → World σ)

inductive Answer where
  | report (result : Except IndexError IndexReport)
  | groups (result : Except IndexError (List Group))
  | hits (result : Except IndexError (List Hit))
  | stats (result : Except IndexError IndexStats)
  | deleted (result : Except IndexError Bool)
  | nothing

variable {σ : Type}

section Calls

/-- Carries out a call. -/
def call (r : Registry σ) (w : World σ) : Call σ → Answer × Registry σ × World σ
  | .index path model outside options =>
    let (result, r, w) := r.index path model outside options w
    (.report result, r, w)
  | .duplicates nanBits path options =>
    let (result, r) := r.findDuplicates nanBits w.disk path options
    (.groups result, r, w)
  | .search path query top threshold =>
    let (result, r, provider) := r.search w.disk path query top threshold w.provider
    (.hits result, r, { w with provider })
  | .similar path file line top threshold =>
    let (result, r) := r.findSimilar w.disk path file line top threshold
    (.hits result, r, w)
  | .stats path =>
    let (result, r) := r.stats w.disk path
    (.stats result, r, w)
  | .clear => (.nothing, r.clear, w)
  | .delete path =>
    let (result, r, disk) := r.deleteIndex w.disk path
    (.deleted result, r, { w with disk })
  | .others change => (.nothing, r, change w)

/-- The answers to some calls with the worlds that they leave, where something is done to the
registry before each call. -/
def answers (before : Registry σ → Registry σ) (r : Registry σ) (w : World σ) :
    List (Call σ) → List (Answer × World σ)
  | [] => []
  | c :: rest =>
    let (answer, r, w) := (before r).call w c
    (answer, w) :: answers before r w rest

theorem answers_cons (before : Registry σ → Registry σ) (r : Registry σ) (w : World σ) (c : Call σ)
    (rest : List (Call σ)) : answers before r w (c :: rest) =
      (((before r).call w c).1, ((before r).call w c).2.2) ::
        answers before ((before r).call w c).2.1 ((before r).call w c).2.2 rest := rfl

/-- The run that is made to index the root under a key. -/
def attempt (r : Registry σ) (key : String) (model : Option String) (outside : Surroundings)
    (options : IndexOptions) (w : World σ) : Attempt σ where
  session := r.sessionFor key (model.getD r.provider.model)
  world := w
  outside := outside
  options := options

theorem call_index {r : Registry σ} {w : World σ} {path key : String} {model : Option String}
    {outside : Surroundings} {options : IndexOptions} (at_path : w.disk.canonical path = .ok key) :
    (r.call w (.index path model outside options)).1 =
      .report (r.attempt key model outside options w).result := by
  simp only [call, index, canonical, at_path]
  rfl

/-- Nothing happens to the documents of a kept session that the registry cannot know of. A run is
orderly, what is deleted holds no index of another session that has been read, and others leave the
index folders alone. -/
def Undisturbed (r : Registry σ) (w : World σ) : Call σ → Prop
  | .index path model outside options =>
    ∀ key, w.disk.canonical path = .ok key → (r.attempt key model outside options w).Orderly
  | .delete path =>
    ∀ gone, w.disk.locate (indexFolderOf path) = .ok gone → ∀ key entry,
      (r.deleteIndex w.disk path).2.1.sessions.get? key = some entry → entry.session.loaded →
      ¬"/" :: gone <+: Path.components (indexFolderOf key)
  | .others change => Spares (fun _ => True) w.disk (change w).disk
  | _ => True

/-- Nothing happens to the documents of a kept session at any of some calls. -/
def AllUndisturbed (r : Registry σ) (w : World σ) : List (Call σ) → Prop
  | [] => True
  | c :: rest => r.Undisturbed w c ∧ AllUndisturbed (r.call w c).2.1 (r.call w c).2.2 rest

end Calls

section Kept

variable {P : String → String → Session σ → Prop} {r : Registry σ} {key model : String}

/-- Each session that is kept is as wanted for its key and its model. -/
def EachKept (P : String → String → Session σ → Prop) (r : Registry σ) : Prop :=
  ∀ key entry, r.sessions.get? key = some entry → P key entry.model entry.session

theorem EachKept.evict (h : r.EachKept P) (key : String) : (r.evict key).EachKept P := by
  intro other entry found
  rw [Registry.evict, SortedMap.get?_erase] at found
  split at found
  next => cases found
  next => exact h other entry found

/-- A session that is kept anew may have replaced one that is not as wanted any more. -/
theorem EachKept.keep (others : (r.evict key).EachKept P) {s : Session σ} (own : P key model s) :
    (r.keep key ⟨model, s⟩).EachKept P := by
  intro other entry found
  rw [Registry.keep, SortedMap.get?_insert] at found
  split at found
  next same =>
    cases found
    exact same ▸ own
  next different =>
    refine others other entry ?_
    rw [Registry.evict, SortedMap.get?_erase, if_neg different]
    exact found

/-- The session for a key is one that is kept, or a new one. -/
theorem EachKept.sessionFor (h : r.EachKept P)
    (fresh : P key model (.new key (r.provider.withModel model) r.settings)) :
    P key model (r.sessionFor key model) := by
  rw [Registry.sessionFor]
  cases found : r.sessions.get? key with
  | none => exact fresh
  | some entry =>
    dsimp only
    split
    next same => exact same ▸ h key entry found
    next => exact fresh

end Kept

section Coherence

variable {r : Registry σ} {d e : Disk} {key model : String}

/-- The session is one that a registry makes for the root under a key, and coherent with a disk. -/
structure Serves (p : Provider σ) (settings : IndexerSettings) (d : Disk) (key model : String)
    (s : Session σ) : Prop where
  named : ∃ place, Named place ∧ key = pathOf place
  root : s.root = key
  provider : s.provider = p.withModel model
  settings : s.settings = settings
  coherent : s.Coherent d

/-- All sessions are kept under the absolute paths of their roots and coherent with the disk. -/
structure Coherent (r : Registry σ) (d : Disk) : Prop where
  working : Named d.workingFolder
  serves : ∀ key entry, r.sessions.get? key = some entry →
    Serves r.provider r.settings d key entry.model entry.session

theorem coherent_clear (r : Registry σ) (working : Named d.workingFolder) : r.clear.Coherent d where
  working := working
  serves := by
    intro key entry found
    cases found

/-- Sessions stay coherent where the documents of those stay that have been read. -/
theorem Coherent.move {spared : Location → Prop} (c : r.Coherent d) (spares : Spares spared d e)
    (apart : ∀ place entry, r.sessions.get? (pathOf place) = some entry → Named place →
      entry.session.loaded → spared place) : r.Coherent e where
  working := by
    rw [spares.working]
    exact c.working
  serves := by
    intro key entry found
    have own := c.serves key entry found
    obtain ⟨place, named, rfl⟩ := own.named
    refine { own with coherent := fun loaded => ?_ }
    have kept := spares.documents place named (apart place entry found named loaded)
    rw [← own.root] at kept
    exact own.coherent.within kept loaded

theorem Coherent.evict (c : r.Coherent d) (key : String) : (r.evict key).Coherent d where
  working := c.working
  serves := EachKept.evict c.serves key

theorem Coherent.keep (others : (r.evict key).Coherent d) {s : Session σ}
    (serves : Serves r.provider r.settings d key model s) :
    (r.keep key ⟨model, s⟩).Coherent d where
  working := others.working
  serves := EachKept.keep others.serves serves

theorem Serves.unload {p : Provider σ} {settings : IndexerSettings} {s : Session σ}
    (h : Serves p settings d key model s) : Serves p settings d key model s.unload :=
  { h with coherent := Session.coherent_of_unloaded rfl }

theorem serves_sessionFor (c : r.Coherent d) (named : ∃ place, Named place ∧ key = pathOf place)
    (model : String) : Serves r.provider r.settings d key model (r.sessionFor key model) := by
  have fresh : Serves r.provider r.settings d key model
      (.new key (r.provider.withModel model) r.settings) :=
    ⟨named, rfl, rfl, rfl, Session.coherent_of_unloaded rfl⟩
  exact EachKept.sessionFor c.serves fresh

/-- A registry that has forgotten everything makes a new session. -/
theorem Serves.sessionFor_clear (h : Serves r.provider r.settings d key model s) :
    r.clear.sessionFor key model = s.renewed := by
  rw [Session.renewed, h.root, h.provider, h.settings]
  rfl

end Coherence

section Steps

variable {r : Registry σ} {w : World σ} {d : Disk}

theorem canonical_ok {path key : String} (h : canonical d path = .ok key) :
    d.canonical path = .ok key := by
  rw [canonical] at h
  split at h
  next found =>
    cases h
    exact found
  next => cases h

theorem named_of_canonical (working : Named d.workingFolder) {path key : String}
    (h : d.canonical path = .ok key) : ∃ place, Named place ∧ key = pathOf place := by
  rw [Disk.canonical] at h
  cases at_path : d.locate path with
  | error e =>
    rw [at_path] at h
    cases h
  | ok place =>
    rw [at_path] at h
    cases h
    exact ⟨place, Disk.named_of_locate working at_path, rfl⟩

section Index

variable (path : String) (model : Option String) (outside : Surroundings) (options : IndexOptions)

theorem index_clear (c : r.Coherent w.disk) :
    (r.index path model outside options w).1 = (r.clear.index path model outside options w).1 ∧
      (r.index path model outside options w).2.2 =
        (r.clear.index path model outside options w).2.2 := by
  rw [index, index]
  cases at_path : canonical w.disk path with
  | error e => exact ⟨rfl, rfl⟩
  | ok key =>
    have named := named_of_canonical c.working (canonical_ok at_path)
    have serves := serves_sessionFor c named (model.getD r.provider.model)
    have same := serves.coherent.index_eq outside options
    rw [← serves.sessionFor_clear] at same
    exact same

theorem coherent_index (c : r.Coherent w.disk)
    (orderly : ∀ key, w.disk.canonical path = .ok key →
      (r.attempt key model outside options w).Orderly) :
    (r.index path model outside options w).2.1.Coherent
      (r.index path model outside options w).2.2.disk := by
  rw [index]
  cases at_path : canonical w.disk path with
  | error e => exact c
  | ok key =>
    have o := orderly _ (canonical_ok at_path)
    have named := named_of_canonical c.working (canonical_ok at_path)
    have serves := serves_sessionFor c named (model.getD r.provider.model)
    obtain ⟨place, place_named, rfl⟩ := named
    -- The run may have replaced the documents of its own root, but that entry is replaced as well.
    have others : (r.evict (pathOf place)).Coherent
        (r.attempt (pathOf place) model outside options w).after.world.disk := by
      refine (c.evict _).move (o.spares place_named serves.root) ?_
      intro other entry found _ _ same
      rw [Registry.evict, same, SortedMap.get?_erase, if_pos rfl] at found
      cases found
    obtain ⟨root, provider, settings⟩ :=
      (r.attempt (pathOf place) model outside options w).after_frame
    have after : Serves r.provider r.settings
        (r.attempt (pathOf place) model outside options w).after.world.disk (pathOf place)
        (model.getD r.provider.model)
        (r.attempt (pathOf place) model outside options w).after.session :=
      ⟨serves.named, root.trans serves.root, provider.trans serves.provider,
        settings.trans serves.settings, o.coherent place_named serves.root serves.coherent⟩
    have either (unusable : Bool) : Serves r.provider r.settings
        (r.attempt (pathOf place) model outside options w).after.world.disk (pathOf place)
        (model.getD r.provider.model)
        (if unusable then (r.attempt (pathOf place) model outside options w).after.session.unload
          else (r.attempt (pathOf place) model outside options w).after.session) := by
      cases unusable
      · exact after
      · exact after.unload
    exact others.keep (either _)

end Index

section Loading

variable {path : String}

theorem load_eq {key : String} (indexed : hasManifest d path) (at_path : d.canonical path = .ok key)
    (r : Registry σ) : r.load d path =
      match (r.sessionFor key r.provider.model).ensureLoaded d with
      | .ok session => (.ok session, r.keep key ⟨r.provider.model, session⟩)
      | .error e => (.error e, r.evict key) := by
  have here : canonical d path = .ok key := by rw [canonical, at_path]
  rw [load]
  split
  next missing => simp [indexed] at missing
  next =>
    split
    next e failed =>
      rw [here] at failed
      cases failed
    next own found =>
      obtain rfl : key = own := Except.ok.inj (here.symm.trans found)
      rfl

/-- What can be loaded, and what cannot, does not depend on what is kept. -/
theorem load_cases (d : Disk) (path : String) :
    (∃ e, ∀ r : Registry σ, r.load d path = (.error e, r)) ∨
      hasManifest d path ∧ ∃ key, d.canonical path = .ok key := by
  by_cases indexed : hasManifest d path
  · cases at_path : d.canonical path with
    | error e => exact .inl ⟨.io, fun r => by simp [load, indexed, canonical, at_path]⟩
    | ok key => exact .inr ⟨indexed, key, rfl⟩
  · exact .inl ⟨.noIndex (indexFolderOf path), fun r => by simp [load, indexed]⟩

/-- A session is loaded alike whether it was kept or not. -/
theorem agree_load (c : r.Coherent d) (path : String) :
    Agree Session.Alike (r.load d path).1 (r.clear.load d path).1 := by
  rcases load_cases d path with ⟨e, failed⟩ | ⟨indexed, key, at_path⟩
  · rw [failed, failed]
    exact .error e
  · have serves := serves_sessionFor c (named_of_canonical c.working at_path) r.provider.model
    have agree := serves.coherent.agree_ensureLoaded
    rw [← serves.sessionFor_clear] at agree
    rw [load_eq indexed at_path, load_eq indexed at_path]
    show Agree _ _ (match (r.clear.sessionFor key r.provider.model).ensureLoaded d with
      | .ok session => (Except.ok session, r.clear.keep key ⟨r.provider.model, session⟩)
      | .error e => (.error e, r.clear.evict key)).1
    generalize (r.sessionFor key r.provider.model).ensureLoaded d = kept at agree
    generalize (r.clear.sessionFor key r.provider.model).ensureLoaded d = anew at agree
    cases agree with
    | ok alike => exact .ok alike
    | error e => exact .error e

theorem coherent_load (c : r.Coherent d) (path : String) : (r.load d path).2.Coherent d := by
  rcases load_cases d path with ⟨e, failed⟩ | ⟨indexed, key, at_path⟩
  · rw [failed]
    exact c
  · have serves := serves_sessionFor c (named_of_canonical c.working at_path) r.provider.model
    rw [load_eq indexed at_path]
    cases loads : (r.sessionFor key r.provider.model).ensureLoaded d with
    | error e => exact c.evict key
    | ok s =>
      have coherent := serves.coherent.ensureLoaded loads
      have served : Serves r.provider r.settings d key r.provider.model s := by
        rcases Session.ensureLoaded_ok loads with rfl | ⟨_, _, rfl⟩
        · exact { serves with coherent }
        · exact { serves with coherent }
      exact (c.evict key).keep served

/-- A question to which sessions that are alike give one answer is answered alike. -/
theorem query_clear {α : Type} (c : r.Coherent d) (path : String)
    (question : Session σ → Except IndexError α)
    (one : ∀ s t, s.Alike t → question s = question t) :
    (r.query d path question).1 = (r.clear.query d path question).1 := by
  have agree := agree_load c path
  simp only [query]
  generalize r.load d path = kept at agree
  generalize r.clear.load d path = anew at agree
  obtain ⟨x, _⟩ := kept
  obtain ⟨y, _⟩ := anew
  cases agree with
  | ok alike => exact one _ _ alike
  | error e => rfl

theorem search_clear (c : r.Coherent d) (path query : String) (top : Nat) (threshold : Float32)
    (p : σ) : (r.search d path query top threshold p).1 =
        (r.clear.search d path query top threshold p).1 ∧
      (r.search d path query top threshold p).2.2 =
        (r.clear.search d path query top threshold p).2.2 := by
  have agree := agree_load c path
  simp only [search]
  generalize r.load d path = kept at agree
  generalize r.clear.load d path = anew at agree
  obtain ⟨x, _⟩ := kept
  obtain ⟨y, _⟩ := anew
  cases agree with
  | ok alike =>
    dsimp only
    rw [alike.search query top threshold p]
    exact ⟨rfl, rfl⟩
  | error e => exact ⟨rfl, rfl⟩

theorem coherent_search (c : r.Coherent d) (path query : String) (top : Nat) (threshold : Float32)
    (p : σ) : (r.search d path query top threshold p).2.1.Coherent d := by
  have after := coherent_load c path
  simp only [search]
  generalize r.load d path = loaded at after
  obtain ⟨_ | _, _⟩ := loaded <;> exact after

end Loading

section Deleting

theorem deleteIndex_clear (r : Registry σ) (d : Disk) (path : String) :
    (r.deleteIndex d path).1 = (r.clear.deleteIndex d path).1 ∧
      (r.deleteIndex d path).2.2 = (r.clear.deleteIndex d path).2.2 := by
  simp only [deleteIndex]
  split
  · exact ⟨rfl, rfl⟩
  · cases d.removeFolder (indexFolderOf path) <;> exact ⟨rfl, rfl⟩

theorem registry_deleteIndex (r : Registry σ) (d : Disk) (path : String) :
    (r.deleteIndex d path).2.1 =
      match d.canonical path with
      | .ok key => r.evict key
      | .error _ => r := by
  simp only [deleteIndex]
  split
  · rfl
  · cases d.removeFolder (indexFolderOf path) <;> rfl

theorem disk_deleteIndex (r : Registry σ) (d : Disk) (path : String) :
    (r.deleteIndex d path).2.2 = d ∨
      ∃ gone, d.locate (indexFolderOf path) = .ok gone ∧ d.isFile gone = false ∧
        (r.deleteIndex d path).2.2 = d.removeAt gone := by
  simp only [deleteIndex]
  split
  · exact .inl rfl
  · cases removed : d.removeFolder (indexFolderOf path) with
    | error e => exact .inl rfl
    | ok e =>
      obtain ⟨gone, at_folder, no_file, rfl⟩ := Disk.removeFolder_ok removed
      exact .inr ⟨gone, at_folder, no_file, rfl⟩

/-- Deleting keeps the sessions coherent whose index folders do not lie below the deleted one. -/
theorem coherent_deleteIndex (c : r.Coherent d) (path : String)
    (apart : ∀ gone, d.locate (indexFolderOf path) = .ok gone → ∀ key entry,
      (r.deleteIndex d path).2.1.sessions.get? key = some entry → entry.session.loaded →
      ¬"/" :: gone <+: Path.components (indexFolderOf key)) :
    (r.deleteIndex d path).2.1.Coherent (r.deleteIndex d path).2.2 := by
  have left : (r.deleteIndex d path).2.1.Coherent d := by
    rw [registry_deleteIndex]
    split
    next key _ => exact c.evict key
    next => exact c
  rcases disk_deleteIndex r d path with same | ⟨gone, at_folder, no_file, same⟩
  · rw [same]
    exact left
  · have named := Disk.named_of_locate c.working at_folder
    rw [same]
    refine left.move (Disk.spares_removeAt named no_file) ?_
    intro place entry found place_named loaded below
    refine apart gone at_folder _ entry found loaded ?_
    rw [Disk.components_indexFolderOf place_named]
    exact List.cons_prefix_cons.mpr ⟨rfl, below⟩

end Deleting

/-- A call is answered, and leaves a world, as if everything had been forgotten before. -/
theorem call_clear (c : r.Coherent w.disk) (asked : Call σ) :
    (r.call w asked).1 = (r.clear.call w asked).1 ∧
      (r.call w asked).2.2 = (r.clear.call w asked).2.2 := by
  cases asked with
  | index path model outside options =>
    obtain ⟨result, world⟩ := index_clear path model outside options c
    exact ⟨congrArg Answer.report result, world⟩
  | duplicates nanBits path options =>
    have same := query_clear c path (·.findDuplicates nanBits options)
      fun _ _ alike => (alike.findDuplicates nanBits options).symm
    exact ⟨congrArg Answer.groups same, rfl⟩
  | search path query top threshold =>
    obtain ⟨result, provider⟩ := search_clear c path query top threshold w.provider
    exact ⟨congrArg Answer.hits result, congrArg (fun p => { w with provider := p }) provider⟩
  | similar path file line top threshold =>
    have same := query_clear c path
      (fun s => s.findSimilar (normalizeFilePath w.disk s.root file) line top threshold)
      fun _ _ alike => by rw [alike.root, alike.findSimilar]
    exact ⟨congrArg Answer.hits same, rfl⟩
  | stats path =>
    have same := query_clear c path Session.stats fun _ _ alike => alike.stats.symm
    exact ⟨congrArg Answer.stats same, rfl⟩
  | clear => exact ⟨rfl, rfl⟩
  | delete path =>
    obtain ⟨result, disk⟩ := deleteIndex_clear r w.disk path
    exact ⟨congrArg Answer.deleted result, congrArg (fun d => { w with disk := d }) disk⟩
  | others change => exact ⟨rfl, rfl⟩

/-- A call keeps a registry coherent if it is not disturbed. -/
theorem coherent_call (c : r.Coherent w.disk) {asked : Call σ} (h : r.Undisturbed w asked) :
    (r.call w asked).2.1.Coherent (r.call w asked).2.2.disk := by
  cases asked with
  | index path model outside options => exact coherent_index path model outside options c h
  | duplicates _ path => exact coherent_load c path
  | search path query top threshold => exact coherent_search c path query top threshold w.provider
  | similar path => exact coherent_load c path
  | stats path => exact coherent_load c path
  | clear => exact coherent_clear r c.working
  | delete path => exact coherent_deleteIndex c path h
  | others change => exact c.move h fun _ _ _ _ _ => trivial

/-- A call changes nothing of a registry but the sessions. -/
theorem clear_call (r : Registry σ) (w : World σ) (asked : Call σ) :
    (r.call w asked).2.1.clear = r.clear := by
  have loading (d : Disk) (path : String) : (r.load d path).2.clear = r.clear := by
    rcases load_cases d path with ⟨e, failed⟩ | ⟨indexed, key, at_path⟩
    · rw [failed]
    · rw [load_eq indexed at_path]
      cases (r.sessionFor key r.provider.model).ensureLoaded d <;> rfl
  cases asked with
  | index path model outside options =>
    show (r.index path model outside options w).2.1.clear = _
    rw [index]
    cases canonical w.disk path <;> rfl
  | duplicates _ path => exact loading w.disk path
  | search path query top threshold =>
    have after := loading w.disk path
    show (r.search w.disk path query top threshold w.provider).2.1.clear = _
    simp only [search]
    generalize r.load w.disk path = loaded at after
    obtain ⟨_ | _, _⟩ := loaded <;> exact after
  | similar path => exact loading w.disk path
  | stats path => exact loading w.disk path
  | clear => rfl
  | delete path =>
    show (r.deleteIndex w.disk path).2.1.clear = _
    rw [registry_deleteIndex]
    cases w.disk.canonical path <;> rfl
  | others change => rfl

end Steps

/-- What holds of one call holds of any number of them. -/
theorem answers_clear {r q : Registry σ} {w : World σ} (c : r.Coherent w.disk)
    (same : q.clear = r.clear) {calls : List (Call σ)} (h : r.AllUndisturbed w calls) :
    answers id r w calls = answers clear q w calls := by
  induction calls generalizing r q w with
  | nil => rfl
  | cons asked rest ih =>
    obtain ⟨here, later⟩ := h
    obtain ⟨answer, world⟩ := call_clear c asked
    -- The registry `q` may keep whatever it likes, since it is cleared before it is asked.
    have next := ih (coherent_call c here) (q := (r.clear.call w asked).2.1)
      ((clear_call r.clear w asked).trans (clear_call r w asked).symm) later
    rw [answers_cons, answers_cons, same, ← answer, ← world, ← next]
    rfl

/-- Forgetting does not show. However a registry is asked to index, to search, to forget and to
delete, the answers and the worlds that are left, documents and all, are the same whether it is
cleared before every call or not. -/
theorem memory_does_not_show (provider : Provider σ) (settings : IndexerSettings) (w : World σ)
    (working : Named w.disk.workingFolder) (calls : List (Call σ))
    (undisturbed : (new provider settings).AllUndisturbed w calls) :
    answers id (new provider settings) w calls = answers clear (new provider settings) w calls :=
  answers_clear (coherent_clear (new provider settings) working) rfl undisturbed

section Sample

open Attempt (sampleProvider sampleSurroundings)

def registrySample : Registry Unit := .new sampleProvider { limits := { minSize := 0 } }

def worldSample : World Unit := { disk := ({} : Disk).withFile "r/x.js" [65], provider := () }

/-- Somebody writes a note beside the sources. -/
def noteSample (w : World Unit) : World Unit :=
  { w with disk := { w.disk with files := w.disk.files.insert "r/notes.txt" [66] } }

def indexSample : Call Unit := .index "/r" none sampleSurroundings {}

def callsSample : List (Call Unit) :=
  [indexSample, .others noteSample, .stats "/r", indexSample, .delete "/r", .stats "/r"]

/-- The first run. -/
def firstSample : Attempt Unit := registrySample.attempt "/r" none sampleSurroundings {} worldSample

/-- The registry and the world before the second run. -/
def laterSample : Registry Unit × World Unit :=
  let indexed := (registrySample.call worldSample indexSample).2
  let noted := (indexed.1.call indexed.2 (.others noteSample)).2
  (noted.1.call noted.2 (.stats "/r")).2

def secondSample : Attempt Unit :=
  laterSample.1.attempt "/r" none sampleSurroundings {} laterSample.2

theorem named_sample : Named ["r"] := Disk.named_singleton ⟨by decide, by decide, by decide⟩

theorem key_sample {d : Disk} {key : String} (h : d.canonical "/r" = .ok key) : key = "/r" :=
  Disk.canonical_pathOf named_sample h

theorem clock_sampleSurroundings :
    Timestamp.parse? sampleSurroundings.now.text = some sampleSurroundings.now := by
  decide +kernel

theorem unindexed_firstSample : ∀ s, firstSample.toSite.stored ≠ .ok s :=
  IndexState.read_ne_ok (ne_ok_of_isOk (by decide +kernel))

theorem orderly_firstSample : firstSample.Orderly := by
  have evaluated : (match firstSample.result, firstSample.after.session.state with
      | .ok _, t =>
        t.table.vectors.entries.all (fun x => Embedding.ofJson? x.2.toJson = some x.2) &&
          t.table.dimension = some 1 && t.manifest.all fun m => decide (m.version = 1 ∧
            m.dimension = some 1 ∧ m.chunkCount = 1 ∧ m.fileCount = 1)
      | .error _, _ => false) = true := by
    decide +kernel
  cases succeeds : firstSample.result with
  | error e =>
    rw [succeeds] at evaluated
    cases evaluated
  | ok report =>
    rw [succeeds] at evaluated
    simp only [Bool.and_eq_true, List.all_eq_true, decide_eq_true_eq, Option.all_eq_true]
      at evaluated
    obtain ⟨⟨vectors, dimension⟩, manifest⟩ := evaluated
    refine ⟨fun d reached => ?_, fun failed => ?_, fun _ _ => ?_⟩
    · rw [reached.eq_of_still (IndexOptions.still_of_none rfl)]
      exact .refl _ _
    · rw [succeeds] at failed
      cases failed
    · refine Attempt.readBack_of_unindexed rfl unindexed_firstSample succeeds
        clock_sampleSurroundings (fun m known => ?_) (fun n known => ?_) (fun id v there => ?_)
      · obtain ⟨version, length, chunks, files⟩ := manifest m known
        refine ⟨by rw [version]; decide, fun n known => ?_, by rw [chunks]; decide,
          by rw [files]; decide⟩
        rw [length] at known
        cases known
        decide
      · rw [dimension] at known
        cases known
        decide
      · exact vectors (id, v) ((SortedMap.mem_entries_iff _ _ _).mpr there)

/-- The second run finds nothing to do, and afterwards only the one session is kept. -/
theorem evaluated_secondSample : (match laterSample.1.call laterSample.2 indexSample with
      | (.report (.ok _), r, w) => (r.deleteIndex w.disk "/r").2.1.sessions.entries.isEmpty
      | _ => false) = true ∧
    (match secondSample.outset with
      | .ok (base, rebuilt, current) =>
        !(Snapshot.diff current base.files).hasChanges && !rebuilt && base.manifest.isSome
      | .error _ => true) = true := by
  decide +kernel

theorem orderly_secondSample (at_path : laterSample.2.disk.canonical "/r" = .ok "/r") :
    secondSample.Orderly := by
  obtain ⟨called, untouched⟩ := evaluated_secondSample
  refine ⟨fun d reached => ?_, fun failed => ?_, fun _ writes => ?_⟩
  · rw [reached.eq_of_still (IndexOptions.still_of_none rfl)]
    exact .refl _ _
  · have answered : (laterSample.1.call laterSample.2 indexSample).1 =
        .report secondSample.result := call_index at_path
    generalize laterSample.1.call laterSample.2 indexSample = ended at called answered
    obtain ⟨answer, r, w⟩ := ended
    cases answered
    rw [failed] at called
    cases called
  · obtain ⟨base, rebuilt, current, start, differs⟩ := writes
    rw [start] at untouched
    cases untouched.symm.trans (Session.writes_iff.mp differs)

theorem undisturbed_firstSample : registrySample.Undisturbed worldSample indexSample := by
  intro key at_key
  rw [key_sample at_key]
  exact orderly_firstSample

theorem spares_noteSample (w : World Unit) :
    Spares (fun _ => True) w.disk (noteSample w).disk := by
  have file : Named ["r", "notes.txt"] := by
    refine named_sample.append (Disk.named_singleton ⟨?_, ?_, ?_⟩) <;> decide
  refine Disk.spares_of_source file (by decide) (by decide) rfl rfl fun k different => ?_
  exact (SortedMap.get?_insert _ _ _ _).trans (if_neg (Ne.symm different))

theorem undisturbed_secondSample : laterSample.1.Undisturbed laterSample.2 indexSample := by
  intro key at_key
  obtain rfl := key_sample at_key
  exact orderly_secondSample at_key

/-- After the root is deleted no session is kept whose documents could be gone. -/
theorem undisturbed_deleteSample : (laterSample.1.call laterSample.2 indexSample).2.1.Undisturbed
    (laterSample.1.call laterSample.2 indexSample).2.2 (.delete "/r") := by
  intro gone _ key entry found
  have none_left := evaluated_secondSample.1
  generalize laterSample.1.call laterSample.2 indexSample = called at found none_left
  obtain ⟨answer, r, w⟩ := called
  have none_left : (r.deleteIndex w.disk "/r").2.1.sessions.entries = [] := by
    split at none_left
    next same =>
      cases same
      simpa using none_left
    next => cases none_left
  rw [SortedMap.get?, none_left] at found
  cases found

theorem undisturbed_callsSample : registrySample.AllUndisturbed worldSample callsSample :=
  ⟨undisturbed_firstSample, spares_noteSample _, trivial, undisturbed_secondSample,
    undisturbed_deleteSample, trivial, trivial⟩

/-- A registry is asked to index, to index again after somebody has written a note, and to delete;
it answers as if it had forgotten everything each time. -/
theorem memory_does_not_show_registrySample : answers id registrySample worldSample callsSample =
    answers clear registrySample worldSample callsSample := by
  have working : Named worldSample.disk.workingFolder := by
    intro name member
    cases member
  exact memory_does_not_show _ _ worldSample working callsSample undisturbed_callsSample

/-- A root that is the index folder of another root. -/
def nestedSample : World Unit where
  disk := { folders := .ofList [("r", ()), ("r/.simili", ())] }
  provider := ()

def nestedIndexSample : Call Unit := .index "/r/.simili" none sampleSurroundings {}

def nestedCallsSample : List (Call Unit) :=
  [nestedIndexSample, .delete "/r", indexSample, nestedIndexSample]

/-- What is asked of a deletion cannot be left out. The index below the deleted folder is gone, and
the session that is kept for it finds nothing to do and writes nothing. -/
theorem memory_shows_nestedSample :
    answers id registrySample nestedSample nestedCallsSample ≠
      answers clear registrySample nestedSample nestedCallsSample := by
  intro same
  have kept : (answers id registrySample nestedSample nestedCallsSample).map
      (hasManifest ·.2.disk "/r/.simili") = [true, false, false, false] := by
    decide +kernel
  have forgotten : (answers clear registrySample nestedSample nestedCallsSample).map
      (hasManifest ·.2.disk "/r/.simili") = [true, false, false, true] := by
    decide +kernel
  rw [same, forgotten] at kept
  exact absurd kept (by decide)

end Sample

end Registry

end Lookalike
