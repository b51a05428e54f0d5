import Lookalike.Proofs.Index.History
import Lookalike.Proofs.Index.Provenance

/-!
# Histories in which runs may fail

A run that fails while it writes leaves a mixture of old and new documents. Whichever of them are
new, each holds chunks that were cut, or vectors of one length. So whatever is read of an index
folder is regular, although its parts may come from different runs.
-/

namespace Lookalike

open Action (run)
open IndexContents (Within)
open IndexState (Sound)

namespace IndexContents

/-- What the catalogue and the table hold, if they can be read. -/
structure Stores (Text : String → Prop) (folder : String) (contents : IndexContents) : Prop where
  catalogue : ∀ bytes c, contents catalogueName = .ok bytes →
    readCatalogue (Path.join folder catalogueName) bytes = .ok c →
    ∀ id x, c.get? id = some x → Chunk.CutFrom x.filePath x ∧ Text x.text
  table : ∀ bytes t, contents vectorsName = .ok bytes →
    readVectors (Path.join folder vectorsName) bytes = .ok t → t.Uniform

/-- Beside a manifest are stores that were written by runs. -/
def Documented (Text : String → Prop) (folder : String) (contents : IndexContents) : Prop :=
  ∀ bytes, contents manifestName = .ok bytes → Stores Text folder contents

variable {Text : String → Prop} {folder : String} {contents others : IndexContents}

theorem Stores.within (h : Stores Text folder others) (k : Within contents others) :
    Stores Text folder contents where
  catalogue := fun bytes c there => h.catalogue bytes c (k _ (by decide) bytes there)
  table := fun bytes t there => h.table bytes t (k _ (by decide) bytes there)

theorem Documented.within (h : Documented Text folder others) (k : Within contents others) :
    Documented Text folder contents := fun bytes there =>
  (h bytes (k _ (by decide) bytes there)).within k

variable {t : IndexState} {m : Manifest}

/-- The document of a sound catalogue is read as one. -/
theorem cutFrom_of_readCatalogue (sound : t.Sound Text) {path : String} {c : Catalogue}
    (read : readCatalogue path (documentBytes t.catalogue.toJson) = .ok c) {id : String} {x : Chunk}
    (found : c.get? id = some x) : Chunk.CutFrom x.filePath x ∧ Text x.text := by
  obtain ⟨d, read_too, _, alike⟩ := Catalogue.readCatalogue_document sound.regular.wellFormed path
  rw [read] at read_too
  cases read_too
  rw [alike.found] at found
  exact ⟨sound.regular.genuine id x found, sound.texts id x found⟩

theorem uniform_of_readVectors (sound : t.Sound Text) {path : String} {v : VectorTable}
    (read : readVectors path (documentBytes t.table.toJson) = .ok v) : v.Uniform :=
  (VectorTable.readVectors_document read).2.uniform sound.regular.uniform

/-- Replacing some of the first documents by those of a sound state leaves sound stores. -/
theorem Stores.replaced (h : Stores Text folder contents) (sound : t.Sound Text) (n : Nat) :
    Stores Text folder (contents.replaced ((t.documents m).take n)) := by
  match n with
  | 0 => exact h
  | 1 =>
    refine ⟨fun bytes c there read => ?_, h.table⟩
    cases there
    exact fun id x => cutFrom_of_readCatalogue sound read
  | n + 2 =>
    refine ⟨fun bytes c there read => ?_, fun bytes v there read => ?_⟩
    · cases there
      exact fun id x => cutFrom_of_readCatalogue sound read
    · cases there
      exact uniform_of_readVectors sound read

theorem stores_of_held (held : IndexState.Held contents t m) (sound : t.Sound Text) :
    Stores Text folder contents where
  catalogue := by
    intro bytes c there read
    rw [held.catalogue] at there
    cases there
    exact fun id x => cutFrom_of_readCatalogue sound read
  table := by
    intro bytes v there read
    rw [held.table] at there
    cases there
    exact uniform_of_readVectors sound read

/-- What is read beside a manifest is sound. -/
theorem Documented.sound (h : Documented Text folder contents) {s : IndexState}
    (read : IndexState.read folder contents = .ok s) : s.Sound Text := by
  obtain ⟨n, at_manifest, a⟩ := IndexState.read_ok.mp read
  obtain ⟨bytes, there, _⟩ := manifest_ok.mp at_manifest
  have stores := h bytes there
  obtain ⟨_, catalogue_there, catalogue_read⟩ := a.catalogue
  obtain ⟨_, table_there, table_read⟩ := a.table
  have well := Catalogue.wellFormed_readCatalogue catalogue_read
  have each := stores.catalogue _ _ catalogue_there catalogue_read
  refine ⟨⟨well, fun id c found => (each id c found).1, fun id known => ?_, ?_⟩,
    fun id c found => (each id c found).2⟩
  · exact (IndexState.synchronised_of_agreeing well a.agreeing id).mpr known
  · exact stores.table _ _ table_there table_read

end IndexContents

section Writing

variable {σ : Type} {s : Session σ} {Text : String → Prop} {t : IndexState} {m : Manifest}
variable {v w : World σ}

/-- Creating the index folder brings no document to light, on any disk that a run reaches. -/
def Attempt.RevealsNothing (a : Attempt σ) : Prop :=
  ∀ d e : Disk, a.options.Reaches a.world.disk d → d.createFolders a.session.folder = .ok e →
    Within (a.session.contents e) (a.session.contents d)

section Revealing

variable {a : Attempt σ} (still : a.options.Still)

include still

/-- Nothing is revealed where no document can be read once the folder is there. -/
theorem Attempt.revealsNothing_of_unread
    (unread : (a.world.disk.createFolders a.session.folder).toOption.all fun e =>
      documentNames.all fun name => !(a.session.contents e name).isOk) : a.RevealsNothing := by
  intro d e reached created
  rw [reached.eq_of_still still] at created
  rw [created] at unread
  intro name member bytes there
  have absent := List.all_eq_true.mp unread name member
  rw [there] at absent
  cases absent

/-- Nothing is revealed where the folder is there. -/
theorem Attempt.revealsNothing_of_folderAt {place : Location}
    (there : a.world.disk.FolderAt a.session.folder place) : a.RevealsNothing := by
  intro d e reached created
  rw [reached.eq_of_still still] at created ⊢
  rw [there.createFolders created]
  exact .refl _

end Revealing

/-- However the writing of a sound state ends, beside a manifest there are sound stores. -/
theorem Session.documented_of_persist {q : Except IndexError Unit}
    (h : run (s.persist t m) v = (q, w)) (sound : t.Sound Text)
    (reveals : ∀ e, v.disk.createFolders s.folder = .ok e →
      Within (s.contents e) (s.contents v.disk))
    (before : (s.contents v.disk).Documented Text s.folder) :
    (s.contents w.disk).Documented Text s.folder := by
  rcases Session.persist_result h with ⟨_, same⟩ | ⟨d, n, created, bound, same, _⟩
  · rw [same]
    exact before
  intro bytes there
  have there := (same manifestName (by decide) bytes).mp there
  by_cases all : n = 4
  · subst all
    have held : IndexState.Held ((s.contents d).replaced ((t.documents m).take 4)) t m :=
      ⟨rfl, rfl, rfl, rfl⟩
    exact (IndexContents.stores_of_held held sound).within same.within
  · -- The manifest is the old one, so there were stores to begin with.
    have old : s.contents d manifestName = .ok bytes := by
      match n, all with
      | 0, _ => exact there
      | 1, _ => exact there
      | 2, _ => exact there
      | 3, _ => exact there
      | n + 5, _ => omega
    have stores := (before.within (reveals d created)) bytes old
    exact (stores.replaced sound n).within same.within

end Writing

namespace Session

variable {σ : Type} {s : Session σ} {outside : Surroundings} {options : IndexOptions}
variable {base t : IndexState} {diff : FileDiff} {d : Disk} {cuts : List CutFile}
variable {embedded : Embedded} {told : IndexReport} {Text : String → Prop}

theorem Ran.sound (ran : Ran s outside options base diff d cuts embedded t told)
    (sound : base.Sound Text) (lands : ∀ f ∈ cuts, ∀ c ∈ f.found,
      ((base.without diff.deleted).decision base c).lands embedded c → Text c.text) :
    t.Sound Text where
  regular := ran.updated.regular
  texts := by
    intro id c found
    rcases ran.updated.found found with ⟨f, hf, hc, _, landed⟩ | untouched
    · exact lands f hf c hc landed
    · exact sound.texts id c untouched.found

end Session

/-- What a session has is sound, and so are the stores in its folder. -/
abbrev Site.Sound {σ : Type} (Text : String → Prop) (x : Site σ) : Prop :=
  x.Holds (IndexState.Sound Text) (IndexContents.Documented Text · ·)

theorem lasting_documented (Text : String → Prop) :
    Lasting (IndexState.Sound Text) (IndexContents.Documented Text · ·) where
  within := fun _ _ _ within documented => documented.within within
  absent := fun _ _ absent bytes there => absurd there (absent bytes)
  read := fun _ _ _ documented read => documented.sound read

theorem Site.Sound.kept {σ : Type} {Text : String → Prop} {x : Site σ} (h : x.Sound Text) :
    x.Kept (IndexState.Sound Text) := ⟨h.loaded, fun _ read => h.stored.sound read⟩

/-- A run starts from a sound state. -/
theorem Site.Sound.base {σ : Type} {Text : String → Prop} {x : Site σ} (h : x.Sound Text)
    {base : IndexState} {rebuilt : Bool} (start : x.session.StartsFrom x.world.disk base rebuilt) :
    IndexState.Sound Text base :=
  (Site.Sound.kept h).base (IndexState.sound_ofDimension Text) start

/-- The texts of the chunks that land in a run are of some sort. -/
def Attempt.LandsOnly {σ : Type} (Text : String → Prop) (a : Attempt σ) : Prop :=
  ∀ base rebuilt current cuts embedded t told,
    a.outset = .ok (base, rebuilt, current) → base.Sound Text →
    a.session.Ran a.outside a.options base (Snapshot.diff current base.files) a.world.disk cuts
      embedded t told →
    ∀ f ∈ cuts, ∀ c ∈ f.found,
      ((base.without (Snapshot.diff current base.files).deleted).decision base c).lands embedded c →
      Text c.text

section Histories

variable {σ : Type} {allowed : Attempt σ → Prop} {Text : String → Prop}

theorem Session.Outcome.sound {a : Attempt σ} {base state : IndexState} {rebuilt : Bool}
    {current : Snapshot} {report : IndexReport} {w' : World σ} (lands : a.LandsOnly Text)
    (start : a.outset = .ok (base, rebuilt, current)) (base_sound : base.Sound Text)
    (outcome : a.session.Outcome a.outside a.options a.world base rebuilt current state report w') :
    state.Sound Text := by
  cases outcome with
  | unchanged _ _ _ same => exact same ▸ base_sound
  | updated cuts embedded t told v _ ran _ _ shape =>
    have ran := ran base_sound.regular
    rw [shape]
    exact (ran.sound base_sound (lands _ _ _ _ _ _ _ start base_sound ran)).withManifest _

/-- A run keeps a site sound, whether it succeeds or fails. -/
theorem Site.Sound.after {a : Attempt σ} (h : a.toSite.Sound Text) (lands : a.LandsOnly Text)
    (reveals : a.RevealsNothing) (leaves : a.options.LeavesDocuments a.session.folder) :
    a.after.Sound Text := by
  have start_sound {base : IndexState} {rebuilt : Bool} {current : Snapshot}
      (start : a.outset = .ok (base, rebuilt, current)) : base.Sound Text :=
    Site.Sound.base h (Session.outset_ok start).1
  have before {d : Disk} (reached : a.options.Reaches a.world.disk d) :
      (a.session.contents d).Documented Text a.session.folder :=
    h.stored.within (reached.within leaves)
  cases ended : a.result with
  | error e =>
    obtain ⟨⟨phase, same⟩, at_end⟩ := Session.index_error (Attempt.eq_of_result ended)
    refine ⟨fun loaded => ?_, ?_⟩
    · rw [same] at loaded ⊢
      exact h.loaded loaded
    · rw [same]
      cases at_end with
      | way reached => exact before reached
      | stopped _ _ _ _ _ _ _ _ _ reached => exact before reached
      | writing base rebuilt current cuts embedded t told v start ran reached failed =>
        have base_sound := start_sound start
        have ran := ran base_sound.regular
        have sound := ran.sound base_sound (lands _ _ _ _ _ _ _ start base_sound ran)
        exact Session.documented_of_persist failed sound (fun e => reveals _ e reached)
          (before reached)
  | ok report =>
    obtain ⟨state, base, rebuilt, current, same, start, outcome⟩ :=
      Session.index_ok (Attempt.eq_of_result ended)
    have base_sound := start_sound start
    rw [show a.after = ⟨a.after.session, a.after.world⟩ from rfl, same]
    refine ⟨fun _ => outcome.sound lands start base_sound, ?_⟩
    cases outcome with
    | unchanged _ _ _ _ _ reached => exact before reached
    | updated cuts embedded t told v _ ran reached written shape =>
      have ran := ran base_sound.regular
      have sound := ran.sound base_sound (lands _ _ _ _ _ _ _ start base_sound ran)
      exact Session.documented_of_persist written sound (fun e => reveals _ e reached)
        (before reached)

/-- Every site of a history is sound. -/
theorem History.sound (lands : ∀ a, allowed a → a.LandsOnly Text)
    (reveals : ∀ a : Attempt σ, allowed a → a.RevealsNothing) {x : Site σ} (h : History allowed x) :
    x.Sound Text :=
  h.holds (lasting_documented Text) fun a is_allowed leaves before =>
    Site.Sound.after before (lands a is_allowed) (reveals a is_allowed) leaves

end Histories

end Lookalike
