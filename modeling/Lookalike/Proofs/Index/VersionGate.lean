import Lookalike.Proofs.Group.Refinement
import Lookalike.Proofs.Index.Corruption
import Lookalike.Proofs.Index.Transparency

/-!
# The version of the format

A run looks at the version of a manifest before it reads the stores, and leaves a manifest of the
supported version. A query does not look at the version: it reads the stores of any version, and it
says that the index is incompatible only if it searches a text and the model is another one. So a
query is guarded by the version only as long as no other version is read from the disk.
-/

namespace Lookalike

section Reading

variable {α β : Type}

/-- The failure is another one than an incompatible index. -/
def NeverIncompatible (result : Except IndexError α) : Prop :=
  ∀ reason, result ≠ .error (.incompatibleIndex reason)

theorem neverIncompatible_ok (a : α) : NeverIncompatible (.ok a : Except IndexError α) := by
  intro reason failed
  cases failed

theorem NeverIncompatible.bind {x : Except IndexError α} {f : α → Except IndexError β}
    (first : NeverIncompatible x) (rest : ∀ a, x = .ok a → NeverIncompatible (f a)) :
    NeverIncompatible (x >>= f) := by
  cases x with
  | error e => exact fun reason failed => first reason (by cases failed; rfl)
  | ok a => exact rest a rfl

theorem NeverIncompatible.map {x : Except IndexError α} (f : α → β) (h : NeverIncompatible x) :
    NeverIncompatible (x.map f) := by
  cases x with
  | error e => exact fun reason failed => h reason (by cases failed; rfl)
  | ok a => exact neverIncompatible_ok (f a)

theorem OnlyCorrupt.neverIncompatible {result : Except IndexError α} (h : OnlyCorrupt result) :
    NeverIncompatible result := by
  rintro reason rfl
  obtain ⟨_, _, same⟩ := h _ rfl
  cases same

namespace IndexContents

variable {folder : String} {contents : IndexContents} {name : String}
variable {read : String → Bytes → Except IndexError α}

theorem neverIncompatible_document (reads : ∀ path bytes, OnlyCorrupt (read path bytes)) :
    NeverIncompatible (document folder contents name read) := by
  intro reason failed
  rw [document] at failed
  split at failed
  next bytes _ => exact (reads _ bytes).neverIncompatible reason failed
  next => cases failed
  next => cases failed

theorem neverIncompatible_companion (reads : ∀ path bytes, OnlyCorrupt (read path bytes)) :
    NeverIncompatible (companion folder contents name read) := by
  intro reason failed
  rw [companion] at failed
  split at failed
  next => cases failed
  next => exact neverIncompatible_document reads reason failed

end IndexContents

namespace IndexState

/-- Reading an index looks at no version. -/
theorem neverIncompatible_read (folder : String) (contents : IndexContents) :
    NeverIncompatible (read folder contents) := by
  refine (IndexContents.neverIncompatible_document onlyCorrupt_readManifest).bind ?_
  intro m _
  refine (IndexContents.neverIncompatible_companion onlyCorrupt_readCatalogue).bind ?_
  intro c _
  refine (IndexContents.neverIncompatible_companion onlyCorrupt_readVectors).bind ?_
  intro t _
  refine (IndexContents.neverIncompatible_companion onlyCorrupt_readFiles).bind ?_
  intro files _
  refine (onlyCorrupt_checkAgreement folder m c t files).neverIncompatible.bind ?_
  exact fun _ _ => neverIncompatible_ok _

end IndexState

end Reading

theorem Manifest.version_of_checkCompatible {m : Manifest} {model : String} {dimension : Option Nat}
    (h : m.checkCompatible model dimension = .ok ()) : m.version = formatVersion := by
  unfold checkCompatible at h
  split at h
  next => cases h
  next supported => simpa using supported

namespace Session

variable {σ : Type} {s t : Session σ} {d : Disk} {m : Manifest}

theorem neverIncompatible_ensureLoaded (s : Session σ) (d : Disk) :
    NeverIncompatible (s.ensureLoaded d) := by
  rw [ensureLoaded]
  split
  · exact neverIncompatible_ok s
  · exact (IndexState.neverIncompatible_read _ _).map _

/-- What a session is asked about when it is loaded. -/
theorem manifest_of_ensureLoaded (current : s.currentManifest d = .ok (some m))
    (loads : s.ensureLoaded d = .ok t) : t.state.manifest = some m ∧ t.provider = s.provider := by
  rw [currentManifest] at current
  rw [ensureLoaded] at loads
  split at loads
  next loaded =>
    cases loads
    rw [if_pos loaded] at current
    exact ⟨Except.ok.inj current, rfl⟩
  next not_loaded =>
    rw [if_neg not_loaded] at current
    cases read : IndexState.read s.folder (s.contents d) with
    | error e =>
      rw [read] at loads
      cases loads
    | ok state =>
      obtain ⟨n, at_manifest, accepted⟩ := IndexState.read_ok.mp read
      rw [read] at loads
      cases loads
      rw [at_manifest] at current
      cases current
      exact ⟨accepted.manifest, rfl⟩

section Questions

variable (known : s.state.manifest = some m)

include known

theorem neverIncompatible_findDuplicates (nanBits : Nat → UInt32) (options : GroupOptions) :
    NeverIncompatible (s.findDuplicates nanBits options) := by
  rw [findDuplicates, requireManifest, known]
  exact neverIncompatible_ok _

theorem neverIncompatible_findSimilar (filePath : String) (line : UInt64) (top : Nat)
    (threshold : Float32) : NeverIncompatible (s.findSimilar filePath line top threshold) := by
  intro reason failed
  simp only [findSimilar, requireManifest, known, bind, Except.bind, Query.nearestToLine] at failed
  split at failed
  next e shown =>
    rw [Catalogue.atLine?] at shown
    split at shown <;> cases shown
    cases failed
  next => cases failed
  next => split at failed <;> cases failed

/-- A text search turns an index down exactly if it was built with another model. -/
theorem search_incompatible_iff (query : String) (top : Nat) (threshold : Float32) (p : σ) :
    (∃ reason, (s.search query top threshold p).1 = .error (.incompatibleIndex reason)) ↔
      m.model ≠ s.provider.model := by
  simp only [search, requireManifest, known]
  split
  next other => exact iff_of_true ⟨_, rfl⟩ other
  next same =>
    refine iff_of_false ?_ same
    rintro ⟨reason, failed⟩
    simp only [Query.nearestToText] at failed
    split at failed
    next cause _ => cases cause <;> cases failed
    next =>
      split at failed
      next => split at failed <;> cases failed
      next => cases failed

end Questions

section Runs

open Lookalike.Action (run run_bind_ok)

variable {outside : Surroundings} {options : IndexOptions} {w w' : World σ}

/-- An update keeps the manifest up to the last step, which renews it. -/
theorem manifest_of_update {base state : IndexState} {rebuilt : Bool} {diff : FileDiff}
    {report : IndexReport}
    (h : run (s.update outside options base rebuilt diff) w = (.ok (state, report), w')) :
    ∃ t, t.manifest = base.manifest ∧
      state.manifest = some (s.nextManifest t rebuilt outside.now) := by
  obtain ⟨cuts, draft, plans, embedded, applied, _, same, carried, _, rfl, _⟩ := update_ok h
  have kept := (Draft.applyPlans_carried carried).2.2
  have drafted := manifest_planAll base
    (diff.deleted.foldl Draft.forgetFile { state := base, report := reportOf diff rebuilt }) cuts
  rw [← same, state_foldl_forgetFile, manifest_without] at drafted
  exact ⟨applied.state, kept.trans drafted, rfl⟩

theorem version_nextManifest {t : IndexState} (rebuilt : Bool) (now : Timestamp)
    (supported : ∀ m, t.manifest = some m → m.version = formatVersion) :
    (s.nextManifest t rebuilt now).version = formatVersion := by
  rw [nextManifest]
  dsimp only
  split
  next => rfl
  next =>
    cases known : t.manifest with
    | none => rfl
    | some m => exact supported m known

theorem StartsFrom.version {base : IndexState} {rebuilt : Bool} (h : s.StartsFrom d base rebuilt)
    (known : base.manifest = some m) : m.version = formatVersion := by
  cases h with
  | nothing => cases known
  | state n loaded at_state compatible =>
    cases at_state.symm.trans known
    exact Manifest.version_of_checkCompatible compatible
  | stored n base at_base compatible =>
    cases at_base.symm.trans known
    exact Manifest.version_of_checkCompatible compatible

/-- A run that succeeds leaves a manifest of the supported version, whatever it has started from. -/
theorem version_of_index {report : IndexReport} {s' : Session σ}
    (h : s.index outside options w = (.ok report, s', w')) (known : s'.state.manifest = some m) :
    m.version = formatVersion := by
  obtain ⟨base, rebuilt, prepared, ended⟩ := index_ok_or_update h
  have starts := prepare_ok prepared
  rcases ended with ⟨same, _⟩ | ⟨diff, v, ran⟩
  · rw [same] at known
    exact starts.version known
  · obtain ⟨t, kept, renewed⟩ := manifest_of_update ran
    cases renewed.symm.trans known
    refine version_nextManifest rebuilt outside.now fun n at_t => ?_
    rw [kept] at at_t
    exact starts.version at_t

end Runs

end Session

section Gate

variable {α σ : Type} {m : Manifest}

/-- The gate for an index with this manifest: it is answered from only if its version is supported,
and with any other version the answer is that the index is incompatible. -/
structure Gated (m : Manifest) (result : Except IndexError α) : Prop where
  supported : result.isOk → m.version = formatVersion
  refused : m.version ≠ formatVersion → ∃ reason, result = .error (.incompatibleIndex reason)

theorem gated_iff {result : Except IndexError α} : Gated m result ↔
    m.version = formatVersion ∨ ∃ reason, result = .error (.incompatibleIndex reason) := by
  constructor
  · intro gated
    by_cases supported : m.version = formatVersion
    · exact .inl supported
    · exact .inr (gated.refused supported)
  · rintro (supported | ⟨reason, refused⟩)
    · exact ⟨fun _ => supported, fun other => absurd supported other⟩
    · refine ⟨fun answered => ?_, fun _ => ⟨reason, refused⟩⟩
      rw [refused] at answered
      cases answered

/-- What is never said to be incompatible is guarded for the supported version only. -/
theorem NeverIncompatible.gated_iff {result : Except IndexError α}
    (never : NeverIncompatible result) : Gated m result ↔ m.version = formatVersion := by
  rw [Lookalike.gated_iff]
  constructor
  · rintro (supported | ⟨reason, refused⟩)
    · exact supported
    · exact absurd refused (never reason)
  · exact .inl

namespace Registry

variable {r : Registry σ} {w : World σ} {d : Disk} {path : String}

/-- An answer with what is similar is guarded by the gate. -/
def Answer.Gated (m : Manifest) : Answer → Prop
  | .groups result => Lookalike.Gated m result
  | .hits result => Lookalike.Gated m result
  | _ => True

/-- The call asks for what is similar in the index of a folder. -/
inductive Call.Asks : Call σ → String → Prop
  | duplicates (nanBits : Nat → UInt32) (path : String) (options : GroupOptions) :
      Asks (.duplicates nanBits path options) path
  | search (path query : String) (top : Nat) (threshold : Float32) :
      Asks (.search path query top threshold) path
  | similar (path file : String) (line : UInt64) (top : Nat) (threshold : Float32) :
      Asks (.similar path file line top threshold) path

def Call.isSearch : Call σ → Bool
  | .search _ _ _ _ => true
  | _ => false

/-- The index of a folder, as the registry has it or would read it, has this manifest. -/
def Meets (r : Registry σ) (d : Disk) (path : String) (m : Manifest) : Prop :=
  hasManifest d path ∧ ∃ key, d.canonical path = .ok key ∧
    (r.sessionFor key r.provider.model).currentManifest d = .ok (some m)

/-- The registry and the world after some calls. -/
def reached (r : Registry σ) (w : World σ) : List (Call σ) → Registry σ × World σ
  | [] => (r, w)
  | c :: rest => reached (r.call w c).2.1 (r.call w c).2.2 rest

/-- The call reads the index of a folder if the registry does not have it. -/
def Call.Reads (c : Call σ) (path : String) : Prop := c.Asks path ∨ c = .stats path

/-- The manifests that a call may read from the disk are allowed. -/
def Supplies (Allowed : Manifest → Prop) (d : Disk) (c : Call σ) : Prop :=
  ∀ path, c.Reads path → ∀ key m, d.canonical path = .ok key →
    (IndexContents.ofDisk d (indexFolderOf key)).manifest (indexFolderOf key) = .ok m → Allowed m

/-- The manifests that any of some calls may read from the disk are allowed. -/
def AllSupplied (Allowed : Manifest → Prop) (r : Registry σ) (w : World σ) :
    List (Call σ) → Prop
  | [] => True
  | c :: rest => Supplies Allowed w.disk c ∧
    AllSupplied Allowed (r.call w c).2.1 (r.call w c).2.2 rest

theorem allSupplied_of_all {Allowed : Manifest → Prop} (all : ∀ m, Allowed m) (r : Registry σ)
    (w : World σ) (calls : List (Call σ)) : AllSupplied Allowed r w calls := by
  induction calls generalizing r w with
  | nil => trivial
  | cons c rest ih => exact ⟨fun _ _ _ m _ _ => all m, ih _ _⟩

section Sessions

variable {Allowed : Manifest → Prop} {p : Provider σ} {key model : String} {s t : Session σ}

/-- A session for the root under a key, whose index has an allowed manifest if it is loaded. -/
structure Admitted (Allowed : Manifest → Prop) (p : Provider σ) (key model : String)
    (s : Session σ) : Prop where
  root : s.root = key
  provider : s.provider = p.withModel model
  manifest : s.loaded → ∀ m, s.state.manifest = some m → Allowed m

/-- All sessions that are kept are admitted. -/
def AllAdmitted (Allowed : Manifest → Prop) (r : Registry σ) : Prop :=
  ∀ key entry, r.sessions.get? key = some entry →
    Admitted Allowed r.provider key entry.model entry.session

theorem allAdmitted_clear (r : Registry σ) : r.clear.AllAdmitted Allowed := by
  intro key entry found
  cases found

theorem AllAdmitted.evict (h : r.AllAdmitted Allowed) (key : String) :
    (r.evict key).AllAdmitted Allowed := EachKept.evict h key

theorem AllAdmitted.keep (h : r.AllAdmitted Allowed) (s_admitted : Admitted Allowed r.provider key
    model s) : (r.keep key ⟨model, s⟩).AllAdmitted Allowed :=
  EachKept.keep (h.evict key) s_admitted

theorem AllAdmitted.sessionFor (h : r.AllAdmitted Allowed) (key model : String) :
    Admitted Allowed r.provider key model (r.sessionFor key model) := by
  have fresh : Admitted Allowed r.provider key model
      (.new key (r.provider.withModel model) r.settings) :=
    ⟨rfl, rfl, fun loaded => by cases loaded⟩
  exact EachKept.sessionFor h fresh

theorem Admitted.unload (h : Admitted Allowed p key model s) :
    Admitted Allowed p key model s.unload :=
  { h with manifest := fun loaded => by cases loaded }

/-- A run keeps a session admitted, because what it leaves has the supported version. -/
theorem Admitted.index (h : Admitted Allowed p key model s)
    (supported : ∀ m : Manifest, m.version = formatVersion → Allowed m) (outside : Surroundings)
    (options : IndexOptions) (w : World σ) :
    Admitted Allowed p key model (s.index outside options w).2.1 := by
  have frame := Attempt.after_frame ⟨⟨s, w⟩, outside, options⟩
  obtain ⟨root, provider, _⟩ := frame
  refine ⟨root.trans h.root, provider.trans h.provider, fun loaded m known => ?_⟩
  generalize ended : s.index outside options w = result at loaded known
  obtain ⟨_ | report, s', w'⟩ := result
  · obtain ⟨⟨phase, rfl⟩, _⟩ := Session.index_error ended
    exact h.manifest loaded m known
  · exact supported m (Session.version_of_index ended known)

/-- Loading keeps a session admitted if the manifest on the disk is allowed. -/
theorem Admitted.ensureLoaded (h : Admitted Allowed p key model s)
    (on_disk : ∀ m, (IndexContents.ofDisk d (indexFolderOf key)).manifest (indexFolderOf key) =
      .ok m → Allowed m) (loads : s.ensureLoaded d = .ok t) : Admitted Allowed p key model t := by
  rcases Session.ensureLoaded_ok loads with rfl | ⟨state, read, rfl⟩
  · exact h
  · refine ⟨h.root, h.provider, fun _ m known => ?_⟩
    obtain ⟨n, at_manifest, accepted⟩ := IndexState.read_ok.mp read
    cases accepted.manifest.symm.trans known
    refine on_disk m ?_
    rw [← h.root]
    exact at_manifest

end Sessions

section Steps

variable {Allowed : Manifest → Prop}

theorem AllAdmitted.load (h : r.AllAdmitted Allowed)
    (on_disk : ∀ key m, d.canonical path = .ok key →
      (IndexContents.ofDisk d (indexFolderOf key)).manifest (indexFolderOf key) = .ok m →
      Allowed m) : (r.load d path).2.AllAdmitted Allowed := by
  rcases load_cases d path with ⟨e, failed⟩ | ⟨indexed, key, at_path⟩
  · rw [failed]
    exact h
  · rw [load_eq indexed at_path]
    cases loads : (r.sessionFor key r.provider.model).ensureLoaded d with
    | error e => exact h.evict key
    | ok s =>
      have own := h.sessionFor key r.provider.model
      exact h.keep (own.ensureLoaded (fun m => on_disk key m at_path) loads)

theorem AllAdmitted.index (h : r.AllAdmitted Allowed)
    (supported : ∀ m : Manifest, m.version = formatVersion → Allowed m) (model : Option String)
    (outside : Surroundings) (options : IndexOptions) :
    (r.index path model outside options w).2.1.AllAdmitted Allowed := by
  rw [Registry.index]
  cases canonical w.disk path with
  | error e => exact h
  | ok key =>
    have after := (h.sessionFor key (model.getD r.provider.model)).index supported outside options w
    have either (unusable : Bool) : Admitted Allowed r.provider key (model.getD r.provider.model)
        (if unusable then
            ((r.sessionFor key (model.getD r.provider.model)).index outside options w).2.1.unload
          else ((r.sessionFor key (model.getD r.provider.model)).index outside options w).2.1) := by
      cases unusable
      · exact after
      · exact after.unload
    exact h.keep (either _)

/-- A call keeps all sessions admitted if what it reads from the disk is allowed. -/
theorem AllAdmitted.call (h : r.AllAdmitted Allowed)
    (supported : ∀ m : Manifest, m.version = formatVersion → Allowed m) {c : Call σ}
    (supplied : Supplies Allowed w.disk c) : (r.call w c).2.1.AllAdmitted Allowed := by
  have reading {path : String} (reads : c.Reads path) :
      (r.load w.disk path).2.AllAdmitted Allowed := h.load (supplied path reads)
  cases c with
  | index path model outside options => exact h.index supported model outside options
  | duplicates nanBits path options => exact reading (.inl (.duplicates nanBits path options))
  | search path query top threshold =>
    have after := reading (.inl (.search path query top threshold))
    show (r.search w.disk path query top threshold w.provider).2.1.AllAdmitted Allowed
    simp only [Registry.search]
    generalize r.load w.disk path = loaded at after
    obtain ⟨_ | _, _⟩ := loaded <;> exact after
  | similar path file line top threshold =>
    exact reading (.inl (.similar path file line top threshold))
  | stats path => exact reading (.inr rfl)
  | clear => exact allAdmitted_clear r
  | delete path =>
    show (r.deleteIndex w.disk path).2.1.AllAdmitted Allowed
    rw [registry_deleteIndex]
    split
    next key _ => exact h.evict key
    next => exact h
  | others change => exact h

/-- What holds of one call holds of any number of them. -/
theorem AllAdmitted.reached (h : r.AllAdmitted Allowed)
    (supported : ∀ m : Manifest, m.version = formatVersion → Allowed m) {calls : List (Call σ)}
    (supplied : AllSupplied Allowed r w calls) : (r.reached w calls).1.AllAdmitted Allowed := by
  induction calls generalizing r w with
  | nil => exact h
  | cons c rest ih =>
    obtain ⟨here, later⟩ := supplied
    exact ih (h.call supported here) later

theorem provider_reached (r : Registry σ) (w : World σ) (calls : List (Call σ)) :
    (r.reached w calls).1.provider = r.provider := by
  induction calls generalizing r w with
  | nil => rfl
  | cons c rest ih =>
    have same : (r.call w c).2.1.clear.provider = r.clear.provider := by rw [clear_call]
    exact (ih _ _).trans same

end Steps

section Queries

/-- Loading an index that has a manifest fails for other reasons than its version or its model. -/
theorem Meets.load (meets : r.Meets d path m) : NeverIncompatible (r.load d path).1 ∧
    ∀ s, (r.load d path).1 = .ok s → s.state.manifest = some m ∧
      (r.AllAdmitted (fun _ => True) → s.provider.model = r.provider.model) := by
  obtain ⟨indexed, key, at_path, current⟩ := meets
  have never := (r.sessionFor key r.provider.model).neverIncompatible_ensureLoaded d
  rw [load_eq indexed at_path]
  cases loads : (r.sessionFor key r.provider.model).ensureLoaded d with
  | error e =>
    rw [loads] at never
    refine ⟨fun reason failed => never reason (by cases failed; rfl), fun s succeeded => ?_⟩
    cases succeeded
  | ok s =>
    obtain ⟨known, provider⟩ := Session.manifest_of_ensureLoaded current loads
    refine ⟨neverIncompatible_ok s, ?_⟩
    rintro _ ⟨⟩
    refine ⟨known, fun admitted => ?_⟩
    rw [provider, (admitted.sessionFor key r.provider.model).provider]
    rfl

/-- Only a text search in an index that can be loaded turns it down, and only for its model. -/
theorem Meets.gated_iff (meets : r.Meets w.disk path m)
    (admitted : r.AllAdmitted fun _ => True) {c : Call σ} (asks : c.Asks path) :
    (r.call w c).1.Gated m ↔ m.version = formatVersion ∨
      c.isSearch ∧ (r.load w.disk path).1.isOk ∧ m.model ≠ r.provider.model := by
  obtain ⟨never, of_loaded⟩ := meets.load
  cases asks with
  | duplicates nanBits path options =>
    have answer :
        NeverIncompatible ((r.load w.disk path).1 >>= (·.findDuplicates nanBits options)) :=
      never.bind fun s loads =>
        s.neverIncompatible_findDuplicates (of_loaded s loads).1 nanBits options
    refine answer.gated_iff.trans ⟨.inl, ?_⟩
    rintro (supported | ⟨is_search, _⟩)
    · exact supported
    · cases is_search
  | similar path file line top threshold =>
    have answer : NeverIncompatible ((r.load w.disk path).1 >>= fun s =>
        s.findSimilar (normalizeFilePath w.disk s.root file) line top threshold) :=
      never.bind fun s loads =>
        s.neverIncompatible_findSimilar (of_loaded s loads).1 _ line top threshold
    refine answer.gated_iff.trans ⟨.inl, ?_⟩
    rintro (supported | ⟨is_search, _⟩)
    · exact supported
    · cases is_search
  | search path query top threshold =>
    have refused_iff : (∃ reason, (r.search w.disk path query top threshold w.provider).1 =
          .error (.incompatibleIndex reason)) ↔
        (r.load w.disk path).1.isOk ∧ m.model ≠ r.provider.model := by
      rw [Registry.search]
      generalize r.load w.disk path = ended at never of_loaded
      obtain ⟨e | s, r'⟩ := ended
      · refine iff_of_false ?_ fun loads => by cases loads.1
        rintro ⟨reason, failed⟩
        cases failed
        exact never reason rfl
      · obtain ⟨known, model⟩ := of_loaded s rfl
        have refused := s.search_incompatible_iff known query top threshold w.provider
        rw [model admitted] at refused
        exact refused.trans ⟨fun other => ⟨rfl, other⟩, fun loads => loads.2⟩
    refine Lookalike.gated_iff.trans (or_congr_right (refused_iff.trans ?_))
    exact ⟨fun refused => ⟨rfl, refused⟩, fun refused => refused.2⟩

/-- What is met is allowed if what is kept and what lies on the disk is. -/
theorem Meets.allowed {Allowed : Manifest → Prop} (meets : r.Meets d path m)
    (admitted : r.AllAdmitted Allowed) {c : Call σ} (asks : c.Asks path)
    (supplied : Supplies Allowed d c) : Allowed m := by
  obtain ⟨_, key, at_path, current⟩ := meets
  have own := admitted.sessionFor key r.provider.model
  rw [Session.currentManifest] at current
  split at current
  next loaded => exact own.manifest loaded m (Except.ok.inj current)
  next =>
    split at current
    next n at_manifest =>
      cases current
      rw [Session.contents, Session.folder, own.root] at at_manifest
      exact supplied path (.inl asks) key m at_path at_manifest
    next => cases current
    next => cases current

end Queries

/-- Queries do not look at the version of the format. Whatever was called before, a query that meets
an index is guarded by the gate only if the version of the index is the supported one, or if it is a
text search that turns the index down for its model. The version is the supported one whenever no
call has read a manifest of another version from the disk: runs leave no other version behind. -/
theorem gated_iff_version_supported (provider : Provider σ) (settings : IndexerSettings)
    (w : World σ) (calls : List (Call σ)) {r : Registry σ} {v : World σ}
    (after : (new provider settings).reached w calls = (r, v)) {c : Call σ} (asks : c.Asks path)
    (meets : r.Meets v.disk path m) :
    ((r.call v c).1.Gated m ↔ m.version = formatVersion ∨
        c.isSearch ∧ (r.load v.disk path).1.isOk ∧ m.model ≠ provider.model) ∧
      (AllSupplied (·.version = formatVersion) (new provider settings) w calls →
        Supplies (·.version = formatVersion) v.disk c → m.version = formatVersion) := by
  have none_kept {Allowed : Manifest → Prop} : (new provider settings).AllAdmitted Allowed :=
    allAdmitted_clear (new provider settings)
  have same_provider := provider_reached (new provider settings) w calls
  rw [after] at same_provider
  constructor
  · have admitted := none_kept.reached (fun m _ => trivial)
      (allSupplied_of_all (fun _ => trivial) (new provider settings) w calls)
    rw [after] at admitted
    rw [meets.gated_iff admitted asks, same_provider]
    rfl
  · intro supplied here
    have admitted := none_kept.reached (fun _ => id) supplied
    rw [after] at admitted
    exact meets.allowed admitted asks here

section Sample

/-- A provider that gives every text the same vector of two numbers. -/
def planarProvider : Provider Unit :=
  { name := "sample", model := "sample", dimension := some 2
    answer := fun _ texts p => (.ok (texts.map fun _ => #[1, 0]), p) }

def planarRegistry : Registry Unit := .new planarProvider {}

/-- The manifest of three chunks, in the next version. -/
def foreignManifest : Manifest :=
  { Manifest.new "sample" (some 2) ⟨0, 0⟩ with version := formatVersion + 1, chunkCount := 3 }

/-- A session that has loaded an index of the next version. -/
def foreignSession : Session Unit :=
  { Session.new "/r" planarProvider {} with
    state :=
      { manifest := some foreignManifest, catalogue := Group.catalogueSample
        table := Group.tableSample }
    loaded := true }

/-- The index is written to an empty disk. -/
def foreignSample : Except IndexError Unit × World Unit :=
  Action.run (foreignSession.persist foreignSession.state foreignManifest)
    { disk := {}, provider := () }

theorem wellFormed_foreignSession : foreignSession.state.catalogue.WellFormed :=
  Catalogue.wellFormed_set (Catalogue.wellFormed_set
    (Catalogue.wellFormed_set Catalogue.wellFormed_empty _) _) _

theorem vectors_foreignSession {id : String} {v : Embedding}
    (there : foreignSession.state.table.get? id = some v) :
    v.size = 2 ∧ Embedding.ofJson? v.toJson = some v := by
  have each : ∀ x ∈ Group.tableSample.vectors.entries,
      x.2.size = 2 ∧ Embedding.ofJson? x.2.toJson = some x.2 := by
    decide +kernel
  exact each (id, v) ((SortedMap.mem_entries_iff _ _ _).mpr there)

theorem readBack_foreignManifest : foreignManifest.ReadBack foreignManifest where
  fits := ⟨by decide, fun d h => by cases h; decide, by decide, by decide⟩
  created := by decide +kernel
  updated := by decide +kernel
  same := rfl

/-- What is read from the disk is what the session has loaded. -/
theorem coherent_foreignSession : foreignSession.Coherent foreignSample.2.disk := by
  intro _
  have well := wellFormed_foreignSession
  have wrote : foreignSample.1.isOk := by decide +kernel
  obtain ⟨⟨⟩, wrote⟩ := exists_of_isOk wrote
  have held : IndexState.Held (foreignSession.contents foreignSample.2.disk) foreignSession.state
      foreignManifest := Session.persist_ok (Prod.ext wrote rfl)
  have uniform : foreignSession.state.table.Uniform := fun id v there =>
    congrArg some (vectors_foreignSession there).1.symm
  have readable : foreignSession.state.table.Readable := by
    refine ⟨fun d h => by cases h; decide, fun id v there => ?_⟩
    rw [(vectors_foreignSession there).2]
    rfl
  have agreeing : IndexState.Agreeing foreignManifest foreignSession.state.catalogue
      foreignSession.state.table foreignSession.state.files := by
    refine ⟨by decide +kernel, by decide +kernel, ?_, by decide +kernel, by decide +kernel⟩
    rintro _ _ ⟨⟩ ⟨⟩
    rfl
  obtain ⟨u, read⟩ := (IndexState.isOk_read_iff held well uniform).mpr
    ⟨⟨_, readBack_foreignManifest⟩, readable, agreeing⟩
  refine ⟨u, read, (IndexState.readBack_of_read held well read).1.alike ?_
    fun id v there => (vectors_foreignSession there).2⟩
  rintro m ⟨⟩
  exact ⟨readBack_foreignManifest.created, readBack_foreignManifest.updated⟩

theorem meets_foreignSample :
    planarRegistry.Meets foreignSample.2.disk "/r" foreignManifest := by
  have evaluated : hasManifest foreignSample.2.disk "/r" ∧
      foreignSample.2.disk.canonical "/r" = .ok "/r" ∧
      (planarRegistry.sessionFor "/r" planarRegistry.provider.model).currentManifest
        foreignSample.2.disk = .ok (some foreignManifest) := by
    decide +kernel
  exact ⟨evaluated.1, "/r", evaluated.2⟩

/-- The index is loaded as it was written. -/
theorem load_foreignSample : ∃ t, (planarRegistry.load foreignSample.2.disk "/r").1 = .ok t ∧
    foreignSession.Alike t := by
  obtain ⟨indexed, key, at_path, _⟩ := meets_foreignSample
  obtain rfl := key_sample at_path
  have same : planarRegistry.sessionFor "/r" planarRegistry.provider.model =
      foreignSession.renewed := rfl
  have agree := coherent_foreignSession.agree_ensureLoaded
  rw [load_eq indexed at_path, same]
  generalize foreignSession.renewed.ensureLoaded foreignSample.2.disk = loaded at agree
  cases agree with
  | ok alike => exact ⟨_, rfl, alike⟩

/-- No query turns down the index of the next version: neither one for duplicates nor one for a
text, which has the model of the index. Both are answered. -/
theorem not_gated_foreignSample :
    ¬(planarRegistry.call foreignSample.2 (.duplicates Group.clearBits "/r" {})).1.Gated
        foreignManifest ∧
      ¬(planarRegistry.call foreignSample.2 (.search "/r" "text" 10 0)).1.Gated foreignManifest ∧
      (∃ groups, (planarRegistry.call foreignSample.2 (.duplicates Group.clearBits "/r" {})).1 =
        .groups (.ok groups) ∧ groups.map (·.members.map (·.id)) = [["a", "c"]]) ∧
      ∃ hits, (planarRegistry.call foreignSample.2 (.search "/r" "text" 10 0)).1 =
        .hits (.ok hits) ∧ hits.map (·.chunk.id) = ["a", "c", "b"] := by
  obtain ⟨t, loads, alike⟩ := load_foreignSample
  have duplicates := (gated_iff_version_supported _ _ foreignSample.2 [] rfl
    (.duplicates Group.clearBits "/r" {}) meets_foreignSample).1
  have search := (gated_iff_version_supported _ _ foreignSample.2 [] rfl
    (.search "/r" "text" 10 0) meets_foreignSample).1
  have evaluated : ((foreignSession.findDuplicates Group.clearBits {}).toOption.any fun groups =>
        groups.map (·.members.map (·.id)) = [["a", "c"]]) ∧
      (foreignSession.search "text" 10 0 ()).1.toOption.any fun hits =>
        hits.map (·.chunk.id) = ["a", "c", "b"] := by
    decide +kernel
  obtain ⟨groups, found, listed⟩ := exists_of_any evaluated.1
  obtain ⟨hits, given, ranked⟩ := exists_of_any evaluated.2
  refine ⟨fun gated => ?_, fun gated => ?_, ⟨groups, ?_, of_decide_eq_true listed⟩,
    hits, ?_, of_decide_eq_true ranked⟩
  · rcases duplicates.mp gated with supported | ⟨is_search, _⟩
    · cases supported
    · cases is_search
  · rcases search.mp gated with supported | ⟨_, _, other⟩
    · cases supported
    · exact other rfl
  · rw [call, Registry.findDuplicates, query]
    generalize planarRegistry.load foreignSample.2.disk "/r" = loaded at loads
    obtain ⟨_, r⟩ := loaded
    cases loads
    exact congrArg Answer.groups ((alike.findDuplicates _ _).trans found)
  · rw [call, Registry.search]
    generalize planarRegistry.load foreignSample.2.disk "/r" = loaded at loads
    obtain ⟨_, r⟩ := loaded
    cases loads
    exact congrArg Answer.hits ((congrArg Prod.fst (alike.search _ _ _ _)).trans given)

end Sample

end Registry

end Gate

end Lookalike
