import Lookalike.Code.Chunking
import Lookalike.Group.Duplicates
import Lookalike.Index.Batches
import Lookalike.Index.Scan
import Lookalike.Query.Similar

/-!
# Sessions

A session holds the index of one root. A run brings the index up to date with the tree: it scans,
compares with what is recorded, cuts the changed files, embeds what has no vector yet, and writes
the documents. The run builds a new state beside the old one, which it replaces only after every
document was written, so a run that fails leaves the session as it was.
-/

namespace Lookalike

/-- What is excluded unless something else is configured. -/
def defaultExcludes : List String :=
  ["node_modules", "dist", "build", "coverage", "*.min.js", "*.d.ts"]

structure IndexerSettings where
  limits : ChunkLimits := {}
  exclude : List String := defaultExcludes
  /-- Texts in one request. -/
  batchSize : Nat := 16
  /-- Requests in flight at once. -/
  concurrency : Nat := 4
  deriving DecidableEq, Repr

structure Session (σ : Type) where
  root : String
  provider : Provider σ
  settings : IndexerSettings
  state : IndexState
  /-- Whether the state is that of the documents, and need not be read again. -/
  loaded : Bool := false
  phase : Phase := .idle

/-- What is counted about an index. -/
structure IndexStats where
  manifest : Manifest
  /-- The roles that occur, with how often they do. -/
  chunksByKind : List (Kind × Nat)
  files : Nat
  deriving DecidableEq, Repr

/-- Whether there is an index below a root. -/
def hasManifest (d : Disk) (root : String) : Bool :=
  d.isFileAt (Path.join (indexFolderOf root) manifestName)

namespace Session

variable {σ : Type}

def new (root : String) (provider : Provider σ) (settings : IndexerSettings) : Session σ :=
  { root, provider, settings, state := .ofDimension provider.dimension }

variable (s : Session σ)

def folder : String := indexFolderOf s.root

def contents (d : Disk) : IndexContents := .ofDisk d s.folder

def hasIndex (d : Disk) : Bool := s.state.manifest.isSome || hasManifest d s.root

/-- Reads the documents unless that was done before. -/
def ensureLoaded (d : Disk) : Except IndexError (Session σ) :=
  if s.loaded then .ok s
  else (IndexState.read s.folder (s.contents d)).map fun state => { s with state, loaded := true }

/-- Forgets what was read. -/
def unload : Session σ :=
  { s with state := .ofDimension s.provider.dimension, loaded := false }

section Run

/-- The manifest of the index as it is; none if there is no index. -/
def currentManifest (d : Disk) : Except IndexError (Option Manifest) :=
  if s.loaded then .ok s.state.manifest
  else
    match (s.contents d).manifest s.folder with
    | .ok m => .ok (some m)
    | .error (.noIndex _) => .ok none
    | .error e => .error e

/-- The state that a run starts from, and whether it discards an index. The manifest is looked at
before the other documents are, which may have a layout that this version does not know. -/
def prepare (d : Disk) (force : Bool) : Except IndexError (IndexState × Bool) := do
  let empty := IndexState.ofDimension s.provider.dimension
  if force then return (empty, hasManifest d s.root)
  match ← s.currentManifest d with
  | none => return (empty, false)
  | some m =>
    match m.checkCompatible s.provider.model s.provider.dimension with
    | .error (.incompatibleIndex _) => return (empty, true)
    | .error e => throw e
    | .ok () =>
      if s.loaded then return (s.state, false)
      else return (← IndexState.readStores s.folder (s.contents d) m, false)

/-- Cuts a text that is source code. -/
def cutText (parse : Language → String → Option SyntaxTree) (limits : ChunkLimits) (path : String)
    (bytes : List UInt8) : Except String (List Chunk) :=
  match Path.language? path, Utf8.decode bytes with
  | none, _ => .error IndexError.unsupportedLanguage.message
  | some _, .error fault => .error s!"not valid UTF-8: {fault.message}"
  | some lang, .ok source =>
    match parse lang source with
    | some tree => .ok (chunksOf lang limits path source tree)
    | none => .error (IndexError.parse s!"syntax errors in {path}").message

/-- Reads and cuts a file below the root. -/
def cutFile (parse : Language → String → Option SyntaxTree) (d : Disk) (path : String) : CutFile :=
  match d.read (Path.join s.root path) with
  | .error _ => { path, hash := pendingHash, chunks := .error "read failed" }
  | .ok bytes =>
    { path, hash := Blake3.hex bytes, chunks := cutText parse s.settings.limits path bytes }

open Lookalike.Action (checkCancelled tell embedQueue assert changeDisk replaceDocument)

/-- Cuts and plans files, of which `done` of `total` were dealt with before. -/
def planFiles (outside : Surroundings) (options : IndexOptions) (base : IndexState)
    (done total : Nat) (d : Draft) : List String → Action σ (Draft × List FilePlan)
  | [] => pure (d, [])
  | path :: rest => do
    checkCancelled options
    tell options { phase := .chunking, current := done + 1, total, file := some path }
    let file := s.cutFile outside.parse (← get).disk path
    let (d, plan) := d.planFile base file
    let (d, plans) ← planFiles outside options base (done + 1) total d rest
    return (d, plan :: plans)

/-- The manifest of a new state. It keeps the date of the index that it continues. -/
def nextManifest (state : IndexState) (rebuilt : Bool) (now : Timestamp) : Manifest :=
  let dimension := state.table.dimension.or s.provider.dimension
  let fresh := Manifest.new s.provider.model dimension now
  let m := if rebuilt then fresh else state.manifest.getD fresh
  { m with
    model := s.provider.model
    dimension
    updatedAt := now
    chunkCount := state.catalogue.size
    fileCount := state.files.size }

/-- Writes a state: the manifest comes last. -/
def persist (state : IndexState) (m : Manifest) : Action σ Unit := do
  changeDisk (·.createFolders s.folder)
  (state.documents m).forM fun (name, bytes) => replaceDocument (Path.join s.folder name) bytes

/-- Writes a state, after a look whether its stores have as many entries. -/
def writeOut (state : IndexState) (m : Manifest) : Action σ Unit := do
  assert (state.catalogue.size = state.table.size)
  s.persist state m

/-- The report of a run that finds a difference. -/
def reportOf (diff : FileDiff) (rebuilt : Bool) : IndexReport :=
  { filesAdded := diff.added.length
    filesModified := diff.modified.length
    filesDeleted := diff.deleted.length
    filesUnchanged := diff.unchanged.length
    rebuilt }

def withTotals (report : IndexReport) (state : IndexState) : IndexReport :=
  { report with totalChunks := state.catalogue.size, totalFiles := state.files.size }

/-- Carries a difference over into the index. -/
def update (outside : Surroundings) (options : IndexOptions) (base : IndexState) (rebuilt : Bool)
    (diff : FileDiff) : Action σ (IndexState × IndexReport) := do
  let draft : Draft := { state := base, report := reportOf diff rebuilt }
  let draft := diff.deleted.foldl Draft.forgetFile draft
  let paths := diff.toProcess
  let (draft, plans) ← s.planFiles outside options base 0 paths.length draft paths
  checkCancelled options
  let embedded ← embedQueue s.provider options s.settings.batchSize s.settings.concurrency
    outside.moves (queueOf plans)
  let draft ← Action.ofExcept (draft.applyPlans embedded plans)
  checkCancelled options
  tell options { phase := .persisting }
  let m := s.nextManifest draft.state rebuilt outside.now
  s.writeOut draft.state m
  return ({ draft.state with manifest := some m }, withTotals draft.report draft.state)

/-- Brings the index up to date: gives the new state and a report. -/
def bringUpToDate (outside : Surroundings) (options : IndexOptions) :
    Action σ (IndexState × IndexReport) := do
  let (base, rebuilt) ← Action.ofExcept (s.prepare (← get).disk options.force)
  checkCancelled options
  tell options { phase := .scanning }
  let snapshot ← Action.ofExcept
    (Scan.snapshot (← get).disk s.root (s.settings.exclude ++ options.exclude))
  tell options { phase := .diffing, total := snapshot.size }
  let diff := Snapshot.diff snapshot base.files
  if !diff.hasChanges && !rebuilt && base.manifest.isSome then
    return (base, withTotals (reportOf diff rebuilt) base)
  else s.update outside options base rebuilt diff

/-- The phase that a session shows after a run that fails. One that stops the program while it runs
leaves the phase that it was in. -/
def phaseAfter : IndexError → Phase
  | .cancelled => .idle
  | .panicked => .persisting
  | _ => .failed

/-- One run. Only a run that succeeds changes the state. -/
def index (outside : Surroundings) (options : IndexOptions) (w : World σ) :
    Except IndexError IndexReport × Session σ × World σ :=
  match (s.bringUpToDate outside options).run { w with events := [], checks := 0 } with
  | (.ok (state, report), w) => (.ok report, { s with state, loaded := true, phase := .idle }, w)
  | (.error e, w) => (.error e, { s with phase := phaseAfter e }, w)

end Run

section Queries

def requireManifest : Except IndexError Manifest :=
  match s.state.manifest with
  | some m => .ok m
  | none => .error (.noIndex s.folder)

def findDuplicates (nanBits : Nat → UInt32) (options : GroupOptions) :
    Except IndexError (List Group) := do
  let _ ← s.requireManifest
  return Group.find nanBits s.state.catalogue s.state.table options

/-- The chunks nearest to a text, in an index of the same model. -/
def search (query : String) (top : Nat) (threshold : Float32) (p : σ) :
    Except IndexError (List Hit) × σ :=
  match s.requireManifest with
  | .error e => (.error e, p)
  | .ok m =>
    if m.model ≠ s.provider.model then
      (.error (.incompatibleIndex
        s!"index built with model {m.model}, query model is {s.provider.model}"), p)
    else
      let (vector, p) := s.provider.embed query p
      (Query.nearestToText s.state.catalogue s.state.table vector top threshold, p)

def findSimilar (filePath : String) (line : UInt64) (top : Nat) (threshold : Float32) :
    Except IndexError (List Hit) := do
  let _ ← s.requireManifest
  Query.nearestToLine s.state.catalogue s.state.table filePath line top threshold

def stats : Except IndexError IndexStats := do
  let manifest ← s.requireManifest
  let kinds := s.state.catalogue.chunks.map (·.kind)
  let counts := Kind.all.map fun k => (k, kinds.count k)
  return { manifest, chunksByKind := counts.filter (0 < ·.2), files := s.state.files.size }

end Queries

end Session

end Lookalike
