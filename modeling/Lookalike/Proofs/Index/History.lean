import Lookalike.Proofs.Index.Persisting

/-!
# Histories of an index

A site is a session with the world around it. Sites change by runs and between runs: others may do
what they like to the world as long as no document appears in the index folder, and a session may
give way to a new one or read the documents. A property of states that the empty states have, that
every run keeps, and that survives writing and reading holds of whatever a run can start from.
-/

namespace Lookalike

open IndexContents (Within)

structure Site (σ : Type) where
  session : Session σ
  world : World σ

/-- A run that is about to start. -/
structure Attempt (σ : Type) extends Site σ where
  outside : Surroundings
  options : IndexOptions

/-- The documents below a path are not touched when progress is told, except for being removed. -/
def IndexOptions.LeavesDocuments (o : IndexOptions) (folder : String) : Prop :=
  ∀ events p d, Within (.ofDisk (o.diskAfter events p d) folder) (.ofDisk d folder)

theorem IndexOptions.Reaches.within {o : IndexOptions} {folder : String} {d e : Disk}
    (leaves : o.LeavesDocuments folder) (h : o.Reaches d e) :
    Within (.ofDisk e folder) (.ofDisk d folder) := by
  induction h with
  | start => exact .refl _
  | event events p _ ih => exact (leaves events p _).trans ih

theorem IndexOptions.Still.leavesDocuments {o : IndexOptions} (still : o.Still) (folder : String) :
    o.LeavesDocuments folder := by
  intro events p d
  rw [still events p d]
  exact .refl _

/-- No document appears when something is removed from a disk. -/
theorem IndexContents.within_removeAt (d : Disk) (gone : Location) (folder : String) :
    Within (.ofDisk (d.removeAt gone) folder) (.ofDisk d folder) := fun name member _ h =>
  Disk.read_removeAt (proper_of_mem_documentNames name member) h

namespace Attempt

variable {σ : Type}

def result (a : Attempt σ) : Except IndexError IndexReport :=
  (a.session.index a.outside a.options a.world).1

def after (a : Attempt σ) : Site σ :=
  ⟨(a.session.index a.outside a.options a.world).2.1,
    (a.session.index a.outside a.options a.world).2.2⟩

theorem eq_of_result {a : Attempt σ} {r : Except IndexError IndexReport} (h : a.result = r) :
    a.session.index a.outside a.options a.world = (r, a.after.session, a.after.world) := by
  rw [← h]
  rfl

/-- A run leaves the root, the provider and the configuration of its session as they are. -/
theorem after_frame (a : Attempt σ) : a.after.session.root = a.session.root ∧
    a.after.session.provider = a.session.provider ∧
    a.after.session.settings = a.session.settings := by
  cases ended : a.result with
  | error e =>
    obtain ⟨⟨phase, same⟩, _⟩ := Session.index_error (eq_of_result ended)
    rw [same]
    exact ⟨rfl, rfl, rfl⟩
  | ok report =>
    obtain ⟨state, _, _, _, same, _⟩ := Session.index_ok (eq_of_result ended)
    rw [same]
    exact ⟨rfl, rfl, rfl⟩

/-- The same holds of the next run in that session. -/
theorem resumed_frame (a : Attempt σ) (w : World σ) (outside : Surroundings)
    (options : IndexOptions) :
    (Attempt.mk ⟨a.after.session, w⟩ outside options).session.root = a.session.root ∧
      (Attempt.mk ⟨a.after.session, w⟩ outside options).session.provider = a.session.provider ∧
      (Attempt.mk ⟨a.after.session, w⟩ outside options).session.settings = a.session.settings :=
  a.after_frame

/-- What the run starts from. -/
def outset (a : Attempt σ) : Except IndexError (IndexState × Bool × Snapshot) :=
  a.session.outset a.options a.world.disk

/-- The run does not find the index up to date. -/
def Writes (a : Attempt σ) : Prop :=
  ∃ base rebuilt current, a.outset = .ok (base, rebuilt, current) ∧
    ((Snapshot.diff current base.files).hasChanges ∨ rebuilt ∨ base.manifest = none)

end Attempt

/-- The sites that allowed runs lead to where there was no index. -/
inductive History {σ : Type} (allowed : Attempt σ → Prop) : Site σ → Prop
  | start (root : String) (provider : Provider σ) (settings : IndexerSettings) (w : World σ)
      (fresh : ∀ bytes, IndexContents.ofDisk w.disk (indexFolderOf root) manifestName ≠ .ok bytes) :
      History allowed ⟨.new root provider settings, w⟩
  | world {x : Site σ} (before : History allowed x) (w : World σ)
      (within : Within (x.session.contents w.disk) (x.session.contents x.world.disk)) :
      History allowed ⟨x.session, w⟩
  | reopen {x : Site σ} (before : History allowed x) (provider : Provider σ)
      (settings : IndexerSettings) :
      History allowed ⟨.new x.session.root provider settings, x.world⟩
  | load {x : Site σ} (before : History allowed x) {s : Session σ}
      (loaded : x.session.ensureLoaded x.world.disk = .ok s) : History allowed ⟨s, x.world⟩
  | unload {x : Site σ} (before : History allowed x) : History allowed ⟨x.session.unload, x.world⟩
  | run (a : Attempt σ) (before : History allowed a.toSite) (is_allowed : allowed a)
      (leaves : a.options.LeavesDocuments a.session.folder) : History allowed a.after

/-- What holds at every site of a history is known before and after each of its runs. -/
theorem History.knowing {σ : Type} {allowed : Attempt σ → Prop} {Known : Site σ → Prop}
    (known : ∀ x, History allowed x → Known x) {x : Site σ} (h : History allowed x) :
    History (fun a => allowed a ∧ Known a.toSite ∧ Known a.after) x := by
  induction h with
  | start root provider settings w fresh => exact .start root provider settings w fresh
  | world _ w within ih => exact .world ih w within
  | reopen _ provider settings ih => exact .reopen ih provider settings
  | load _ loaded ih => exact .load ih loaded
  | unload _ ih => exact .unload ih
  | run a before is_allowed leaves ih =>
    have after := known _ (.run a before is_allowed leaves)
    exact .run a ih ⟨is_allowed, known _ before, after⟩ leaves

namespace Site

variable {σ : Type}

/-- What is read from the index folder. -/
def stored (x : Site σ) : Except IndexError IndexState :=
  IndexState.read x.session.folder (x.session.contents x.world.disk)

/-- A property of what the session has in memory and one of the documents in its folder. -/
structure Holds (P : IndexState → Prop) (Documents : String → IndexContents → Prop) (x : Site σ) :
    Prop where
  loaded : x.session.loaded → P x.session.state
  stored : Documents x.session.folder (x.session.contents x.world.disk)

/-- Whatever a run can start from has the property. -/
abbrev Kept (P : IndexState → Prop) (x : Site σ) : Prop :=
  x.Holds P fun folder contents => ∀ s, IndexState.read folder contents = .ok s → P s

end Site

/-- A property of documents that is lost with no document, is there without a manifest, and passes
to what is read. -/
structure Lasting (P : IndexState → Prop) (Documents : String → IndexContents → Prop) : Prop where
  within : ∀ folder contents others, Within contents others → Documents folder others →
    Documents folder contents
  absent : ∀ folder contents, (∀ bytes, contents manifestName ≠ .ok bytes) →
    Documents folder contents
  read : ∀ folder contents s, Documents folder contents →
    IndexState.read folder contents = .ok s → P s

/-- What runs keep holds throughout a history. -/
theorem History.holds {σ : Type} {allowed : Attempt σ → Prop} {P : IndexState → Prop}
    {Documents : String → IndexContents → Prop} (lasting : Lasting P Documents)
    (run : ∀ a : Attempt σ, allowed a → a.options.LeavesDocuments a.session.folder →
      a.toSite.Holds P Documents → a.after.Holds P Documents)
    {x : Site σ} (h : History allowed x) : x.Holds P Documents := by
  induction h with
  | start root provider settings w fresh =>
    exact ⟨fun loaded => by simp [Session.new] at loaded, lasting.absent _ _ fresh⟩
  | world before w within ih => exact ⟨ih.loaded, lasting.within _ _ _ within ih.stored⟩
  | reopen before provider settings ih =>
    exact ⟨fun loaded => by simp [Session.new] at loaded, ih.stored⟩
  | @load x before s loaded ih =>
    rw [Session.ensureLoaded] at loaded
    split at loaded
    next =>
      cases loaded
      exact ih
    next =>
      cases read : IndexState.read x.session.folder (x.session.contents x.world.disk) with
      | error e =>
        rw [read] at loaded
        cases loaded
      | ok state =>
        rw [read] at loaded
        cases loaded
        exact ⟨fun _ => lasting.read _ _ _ ih.stored read, ih.stored⟩
  | unload before ih => exact ⟨fun loaded => by simp [Session.unload] at loaded, ih.stored⟩
  | run a before is_allowed leaves ih => exact run a is_allowed leaves ih

namespace Session

variable {σ : Type} {s : Session σ}

/-- A run starts from nothing or continues a state that it has or reads. -/
inductive StartsFrom (s : Session σ) (d : Disk) : IndexState → Bool → Prop
  | nothing (rebuilt : Bool) : StartsFrom s d (.ofDimension s.provider.dimension) rebuilt
  | state (m : Manifest) (loaded : s.loaded) (known : s.state.manifest = some m)
      (compatible : m.checkCompatible s.provider.model s.provider.dimension = .ok ()) :
      StartsFrom s d s.state false
  | stored (m : Manifest) (base : IndexState) (known : base.manifest = some m)
      (compatible : m.checkCompatible s.provider.model s.provider.dimension = .ok ())
      (read : IndexState.read s.folder (s.contents d) = .ok base) : StartsFrom s d base false

theorem prepare_ok {d : Disk} {force : Bool} {base : IndexState} {rebuilt : Bool}
    (h : s.prepare d force = .ok (base, rebuilt)) : StartsFrom s d base rebuilt := by
  rw [prepare] at h
  split at h
  next =>
    cases h
    exact .nothing _
  next =>
    obtain ⟨current, looked, h⟩ := bind_eq_ok.mp h
    split at h
    next =>
      cases h
      exact .nothing _
    next m =>
      split at h
      next =>
        cases h
        exact .nothing _
      next => cases h
      next compatible =>
        rw [currentManifest] at looked
        split at h
        next loaded =>
          cases h
          rw [if_pos loaded] at looked
          exact .state m loaded (Except.ok.inj looked) compatible
        next not_loaded =>
          rw [if_neg not_loaded] at looked
          obtain ⟨read, stores, h⟩ := bind_eq_ok.mp h
          cases h
          split at looked
          next at_manifest =>
            cases looked
            exact .stored m base (IndexState.readStores_ok.mp stores).manifest compatible
              (IndexState.read_ok.mpr ⟨m, at_manifest, IndexState.readStores_ok.mp stores⟩)
          next => cases looked
          next => cases looked

/-- A session that has loaded nothing continues the index that it reads, if this suits its provider.
-/
theorem prepare_stored {d : Disk} {base : IndexState} {m : Manifest} (unloaded : s.loaded = false)
    (read : IndexState.read s.folder (s.contents d) = .ok base) (known : base.manifest = some m)
    (compatible : m.checkCompatible s.provider.model s.provider.dimension = .ok ()) :
    s.prepare d false = .ok (base, false) := by
  obtain ⟨n, at_manifest, accepted⟩ := IndexState.read_ok.mp read
  cases accepted.manifest.symm.trans known
  have stores := IndexState.readStores_ok.mpr accepted
  have current : s.currentManifest d = .ok (some m) := by
    simp only [currentManifest, unloaded, Bool.false_eq_true, if_false, at_manifest]
  simp only [prepare, current, compatible, stores, unloaded, bind, Except.bind, pure, Except.pure,
    Bool.false_eq_true, if_false]

theorem outset_ok {options : IndexOptions} {d : Disk} {base : IndexState} {rebuilt : Bool}
    {current : Snapshot} (h : s.outset options d = .ok (base, rebuilt, current)) :
    StartsFrom s d base rebuilt ∧
      Scan.snapshot (options.diskAfter 0 { phase := .scanning } d) s.root
        (s.settings.exclude ++ options.exclude) = .ok current := by
  obtain ⟨⟨base', rebuilt'⟩, prepared, h⟩ := bind_eq_ok.mp h
  obtain ⟨current', scanned, same⟩ := bind_eq_ok.mp h
  cases same
  exact ⟨prepare_ok prepared, scanned⟩

end Session

section Invariants

variable {σ : Type} {allowed : Attempt σ → Prop} {P : IndexState → Prop}

/-- A property of states that holds whatever allowed runs do. -/
structure Invariant (allowed : Attempt σ → Prop) (P : IndexState → Prop) : Prop where
  nothing : ∀ dimension, P (.ofDimension dimension)
  wellFormed : ∀ t, P t → t.catalogue.WellFormed
  readBack : ∀ t u, P t → t.ReadBack u → P u
  succeeded : ∀ (a : Attempt σ) base rebuilt current state report w', allowed a → P base →
    a.outset = .ok (base, rebuilt, current) →
    a.session.Outcome a.outside a.options a.world base rebuilt current state report w' → P state
  failed : ∀ (a : Attempt σ) e, allowed a → a.result = .error e →
    ∀ s, a.after.stored = .ok s → a.toSite.stored = .ok s ∨ P s

theorem Site.Kept.base {x : Site σ} (kept : x.Kept P)
    (nothing : ∀ dimension, P (.ofDimension dimension))
    {base : IndexState} {rebuilt : Bool} (h : x.session.StartsFrom x.world.disk base rebuilt) :
    P base := by
  cases h with
  | nothing => exact nothing _
  | state m loaded => exact kept.loaded loaded
  | stored m _ _ _ read => exact kept.stored _ read

/-- A run keeps an invariant. -/
theorem Invariant.run (i : Invariant allowed P) (a : Attempt σ) (is_allowed : allowed a)
    (leaves : a.options.LeavesDocuments a.session.folder) (kept : a.toSite.Kept P) :
    a.after.Kept P := by
  cases ended : a.result with
  | error e =>
    obtain ⟨⟨phase, same⟩, _⟩ := Session.index_error (Attempt.eq_of_result ended)
    refine ⟨fun loaded => ?_, fun s read => ?_⟩
    · rw [same] at loaded ⊢
      exact kept.loaded loaded
    · rcases i.failed a e is_allowed ended s read with before | good
      · exact kept.stored s before
      · exact good
  | ok report =>
    obtain ⟨state, base, rebuilt, current, same, start, outcome⟩ :=
      Session.index_ok (Attempt.eq_of_result ended)
    have base_good := kept.base i.nothing (Session.outset_ok start).1
    have state_good :=
      i.succeeded a base rebuilt current state report _ is_allowed base_good start outcome
    refine ⟨fun _ => by rw [same]; exact state_good, fun s read => ?_⟩
    have read : IndexState.read a.session.folder (a.session.contents a.after.world.disk) =
      .ok s := by
      rw [same] at read
      exact read
    cases outcome with
    | unchanged _ _ _ _ _ reached =>
      exact kept.stored s (IndexState.read_within (reached.within leaves) read)
    | updated _ _ t _ _ _ _ _ written shape =>
      rw [shape] at state_good
      have held := Session.persist_ok written
      have well := i.wellFormed _ state_good
      exact i.readBack _ s state_good (IndexState.readBack_of_read held well read).1

theorem lasting_kept (P : IndexState → Prop) : Lasting P fun folder contents =>
    ∀ s, IndexState.read folder contents = .ok s → P s where
  within := fun _ _ _ within kept s read => kept s (IndexState.read_within within read)
  absent := fun _ _ absent s read => absurd read (IndexState.read_ne_ok absent s)
  read := fun _ _ s kept read => kept s read

/-- An invariant holds throughout a history. -/
theorem Invariant.history (i : Invariant allowed P) {x : Site σ} (h : History allowed x) :
    x.Kept P :=
  h.holds (lasting_kept P) i.run

/-- A run starts from what has the invariant. -/
theorem Invariant.base (i : Invariant allowed P) {x : Site σ} (h : History allowed x)
    {base : IndexState} {rebuilt : Bool} (start : x.session.StartsFrom x.world.disk base rebuilt) :
    P base := (i.history h).base i.nothing start

end Invariants

end Lookalike
