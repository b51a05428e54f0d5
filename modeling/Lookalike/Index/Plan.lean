import Lookalike.Embedding.Provider
import Lookalike.Index.Report
import Lookalike.Index.State

/-!
# Plans

Between cutting the changed files and writing the index stands a plan: for each chunk whether its
entry stays, takes over a vector of the same content, or waits for a vector of its own. Planning a
file takes its outdated entries out of the state at once, so a chunk whose embedding fails later is
missing rather than outdated.
-/

namespace Lookalike

/-- The hash that is recorded for a file whose chunks are not all in the index. It is the hash of no
content, so the next run looks at the file again. -/
def pendingHash : String := ""

inductive Decision where
  /-- The entry with this identity has this content already. -/
  | keep
  /-- An entry of the index had this content, with this vector. -/
  | reuse (vector : Embedding)
  | embed
  deriving DecidableEq

structure FilePlan where
  path : String
  hash : String
  chunks : List (Chunk × Decision)

/-- A source file after cutting: its chunks, or why it is skipped. -/
structure CutFile where
  path : String
  hash : String
  chunks : Except String (List Chunk)

/-- A content that has to be embedded. -/
structure QueuedText where
  contentHash : String
  text : String
  deriving DecidableEq, Repr

/-- The vectors of queued contents, and why others have none, by content hash. -/
structure Embedded where
  vectors : SortedMap Embedding := ∅
  failures : SortedMap String := ∅
  deriving DecidableEq

/-- The state and the report that a run builds up. -/
structure Draft where
  state : IndexState
  report : IndexReport

namespace IndexState

/-- What to do for a chunk, given the state as it is and the state that the run started from. -/
def decision (state base : IndexState) (c : Chunk) : Decision :=
  let known := (state.catalogue.get? c.id).any (·.contentHash = c.contentHash)
  if known && state.table.contains c.id then .keep
  else
    match (base.catalogue.findContent? c.contentHash).bind fun same => base.table.get? same.id with
    | some vector => .reuse vector
    | none => .embed

def removeChunk (s : IndexState) (id : String) : IndexState :=
  { s with catalogue := s.catalogue.remove id, table := s.table.remove id }

def recordFile (s : IndexState) (path hash : String) : IndexState :=
  { s with files := s.files.insert path hash }

end IndexState

namespace Draft

/-- Takes a deleted file out, with all its chunks. -/
def forgetFile (d : Draft) (path : String) : Draft :=
  let (cataloged, catalogue) := d.state.catalogue.removeFile path
  let (tabled, table) := d.state.table.removeFile path
  let removed := (cataloged ++ tabled).eraseDups.length
  { state := { d.state with catalogue, table, files := d.state.files.erase path }
    report := { d.report with chunksRemoved := d.report.chunksRemoved + removed } }

def skip (d : Draft) (path reason : String) : Draft :=
  { d with report := { d.report with skippedFiles := d.report.skippedFiles ++ [⟨path, reason⟩] } }

/-- Takes a chunk out that is not kept; it counts as removed unless its identity comes back. -/
def dropChunk (comesBack : List String) (d : Draft) (id : String) : Draft :=
  let removed := if id ∈ comesBack then 0 else 1
  { state := d.state.removeChunk id
    report := { d.report with chunksRemoved := d.report.chunksRemoved + removed } }

/-- Plans a file and takes its entries out except for those that are kept. -/
def planFile (base : IndexState) (d : Draft) (f : CutFile) : Draft × FilePlan :=
  let (d, chunks) :=
    match f.chunks with
    | .ok chunks => (d, chunks)
    | .error reason => (d.skip f.path reason, [])
  let planned := chunks.map fun c => (c, d.state.decision base c)
  let kept := (planned.filter (·.2 = .keep)).map (·.1.id)
  let stale := ((d.state.catalogue.ofFile f.path).map (·.id)).filter (· ∉ kept)
  (stale.foldl (dropChunk (chunks.map (·.id))) d,
    { path := f.path, hash := f.hash, chunks := planned })

end Draft

section Queue

/-- The contents that wait for a vector, each once, in the order of their first chunks. -/
def queueFrom (seen : List String) : List (Chunk × Decision) → List QueuedText
  | [] => []
  | (c, .embed) :: rest =>
    if c.contentHash ∈ seen then queueFrom seen rest
    else ⟨c.contentHash, c.text⟩ :: queueFrom (c.contentHash :: seen) rest
  | (_, _) :: rest => queueFrom seen rest

def queueOf (plans : List FilePlan) : List QueuedText := queueFrom [] (plans.flatMap (·.chunks))

end Queue

namespace Draft

/-- Puts a chunk and a vector into the state. -/
def store (d : Draft) (c : Chunk) (vector : Embedding) : Except IndexError Draft := do
  let table ← d.state.table.upsert c.id vector
  return { d with state := { d.state with table, catalogue := d.state.catalogue.set c } }

def fail (d : Draft) (c : Chunk) (reason : String) : Draft :=
  { d with
    report := { d.report with
      failedChunks := d.report.failedChunks ++ [⟨c.id, c.filePath, reason⟩] } }

/-- Carries out the decision on one chunk; tells whether the chunk is in the index then. -/
def carryOut (embedded : Embedded) (d : Draft) (c : Chunk) :
    Decision → Except IndexError (Draft × Bool)
  | .keep => .ok ({ d with state := { d.state with catalogue := d.state.catalogue.set c } }, true)
  | .reuse vector => do
    let d ← d.store c vector
    return ({ d with report := { d.report with chunksReused := d.report.chunksReused + 1 } }, true)
  | .embed =>
    match embedded.vectors.get? c.contentHash with
    | some vector => do
      let d ← d.store c vector
      return ({ d with
        report := { d.report with chunksEmbedded := d.report.chunksEmbedded + 1 } }, true)
    | none =>
      .ok (d.fail c ((embedded.failures.get? c.contentHash).getD "not embedded"), false)

/-- Carries out the decisions on some chunks; tells whether all of them are in the index then. -/
def carryOutAll (embedded : Embedded) (d : Draft) :
    List (Chunk × Decision) → Except IndexError (Draft × Bool)
  | [] => .ok (d, true)
  | (c, decision) :: rest => do
    let (d, present) ← d.carryOut embedded c decision
    let (d, complete) ← carryOutAll embedded d rest
    return (d, present && complete)

/-- Carries out the plan of a file and records the file. -/
def applyPlan (embedded : Embedded) (d : Draft) (p : FilePlan) : Except IndexError Draft := do
  let (d, complete) ← d.carryOutAll embedded p.chunks
  return { d with state := d.state.recordFile p.path (if complete then p.hash else pendingHash) }

def applyPlans (embedded : Embedded) (d : Draft) (plans : List FilePlan) :
    Except IndexError Draft := plans.foldlM (applyPlan embedded) d

end Draft

end Lookalike
