import Lookalike.Index.Session

/-!
# The registry of sessions

Sessions are kept by the absolute path of their root, one for each, so that an index is read once.
A session whose index cannot be used is given up, and the next call starts anew.
-/

namespace Lookalike

structure Registered (σ : Type) where
  model : String
  session : Session σ

structure Registry (σ : Type) where
  provider : Provider σ
  settings : IndexerSettings
  sessions : SortedMap (Registered σ) := ∅

/-- The path of a file below a root, from how a user names the file: an absolute path is taken
relative to the root, in any other one leading dots go and backslashes turn into slashes. -/
def normalizeFilePath (d : Disk) (root file : String) : String :=
  let plain := String.ofList ((dropDots file.toList).map fun c => if c = '\\' then '/' else c)
  if file.startsWith "/" then
    let resolved := (d.canonical file).toOption.getD file
    (Path.relative? root resolved).getD plain
  else plain
where
  dropDots : List Char → List Char
    | '.' :: '/' :: rest => dropDots rest
    | text => text

namespace Registry

variable {σ : Type}

def new (provider : Provider σ) (settings : IndexerSettings) : Registry σ := { provider, settings }

variable (r : Registry σ)

/-- How many sessions are kept. -/
def cached : Nat := r.sessions.size

def keep (key : String) (entry : Registered σ) : Registry σ :=
  { r with sessions := r.sessions.insert key entry }

/-- Gives a session up. -/
def evict (key : String) : Registry σ := { r with sessions := r.sessions.erase key }

def clear : Registry σ := { r with sessions := ∅ }

/-- The session that is kept under a key if it has the model, else a new one. -/
def sessionFor (key model : String) : Session σ :=
  let fresh := Session.new key (r.provider.withModel model) r.settings
  match r.sessions.get? key with
  | some entry => if entry.model = model then entry.session else fresh
  | none => fresh

def canonical (d : Disk) (path : String) : Except IndexError String :=
  match d.canonical path with
  | .ok key => .ok key
  | .error _ => .error .io

/-- Runs the indexer on a folder, with a model of its own if one is given. -/
def index (path : String) (model : Option String) (outside : Surroundings) (options : IndexOptions)
    (w : World σ) : Except IndexError IndexReport × Registry σ × World σ :=
  match canonical w.disk path with
  | .error e => (.error e, r, { w with events := [], checks := 0 })
  | .ok key =>
    let model := model.getD r.provider.model
    let (result, session, w) := (r.sessionFor key model).index outside options w
    let unusable :=
      match result with
      | .error e => e.requiresRebuild
      | .ok _ => false
    (result, r.keep key ⟨model, if unusable then session.unload else session⟩, w)

/-- The session of a folder with the index in it. -/
def load (d : Disk) (path : String) : Except IndexError (Session σ) × Registry σ :=
  if !hasManifest d path then (.error (.noIndex (indexFolderOf path)), r)
  else
    match canonical d path with
    | .error e => (.error e, r)
    | .ok key =>
      let model := r.provider.model
      match (r.sessionFor key model).ensureLoaded d with
      | .ok session => (.ok session, r.keep key ⟨model, session⟩)
      | .error e => (.error e, r.evict key)

/-- Asks the session of a folder. -/
def query {α : Type} (d : Disk) (path : String) (question : Session σ → Except IndexError α) :
    Except IndexError α × Registry σ :=
  let (session, r) := r.load d path
  (session.bind question, r)

def findDuplicates (nanBits : Nat → UInt32) (d : Disk) (path : String) (options : GroupOptions) :
    Except IndexError (List Group) × Registry σ :=
  r.query d path (·.findDuplicates nanBits options)

def findSimilar (d : Disk) (path file : String) (line : UInt64) (top : Nat) (threshold : Float32) :
    Except IndexError (List Hit) × Registry σ :=
  r.query d path fun s => s.findSimilar (normalizeFilePath d s.root file) line top threshold

def stats (d : Disk) (path : String) : Except IndexError IndexStats × Registry σ :=
  r.query d path Session.stats

def search (d : Disk) (path query : String) (top : Nat) (threshold : Float32) (p : σ) :
    Except IndexError (List Hit) × Registry σ × σ :=
  match r.load d path with
  | (.error e, r) => (.error e, r, p)
  | (.ok session, r) =>
    let (hits, p) := session.search query top threshold p
    (hits, r, p)

/-- Removes the index of a folder; tells whether there was one. -/
def deleteIndex (d : Disk) (path : String) : Except IndexError Bool × Registry σ × Disk :=
  let r :=
    match d.canonical path with
    | .ok key => r.evict key
    | .error _ => r
  let folder := indexFolderOf path
  if !d.existsAt folder then (.ok false, r, d)
  else
    match d.removeFolder folder with
    | .ok d => (.ok true, r, d)
    | .error _ => (.error .io, r, d)

end Registry

end Lookalike
