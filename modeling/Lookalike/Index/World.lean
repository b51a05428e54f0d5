import Lookalike.Code.Language
import Lookalike.Code.Tree
import Lookalike.Disk
import Lookalike.Index.Error
import Lookalike.Index.Report
import Lookalike.Text.Quoted
import Lookalike.Timestamp

/-!
# The world of a run

A run of the indexer reads and writes a disk, asks a provider and tells its progress. All of it is a
value that is passed along, and a failed action leaves behind what was done before it failed. Others
may change the disk while the run goes on, and may cancel it; both are seen at fixed places only, so
both are functions of how far the run has come.
-/

namespace Lookalike

structure World (σ : Type) where
  disk : Disk
  /-- The state of the provider. -/
  provider : σ
  /-- What the run has told so far. -/
  events : List Progress := []
  /-- How often the run has looked whether it is cancelled. -/
  checks : Nat := 0

/-- An action on the world that may fail. -/
abbrev Action (σ α : Type) := ExceptT IndexError (StateM (World σ)) α

/-- What happens next while batches are embedded, as far as it can. -/
inductive Move where
  /-- The next batch is sent. -/
  | send
  /-- The answer to one of the batches in flight, by its place, is taken in. -/
  | take (place : Nat)
  deriving DecidableEq, Repr

/-- What a run takes from outside and does not change. -/
structure Surroundings where
  now : Timestamp
  /-- The syntax tree of a text, unless the text has a syntax error. -/
  parse : Language → String → Option SyntaxTree
  /-- In what order batches are sent and answered. After these moves every batch that is in flight
  is answered before the next one is sent. -/
  moves : List Move := []

structure IndexOptions where
  /-- Discard what is there and index from scratch. -/
  force : Bool := false
  /-- Patterns that are excluded beside the configured ones. -/
  exclude : List String := []
  /-- Whether the run is cancelled, after some events and some checks. -/
  cancelled : Option (Nat → Nat → Bool) := none
  /-- What becomes of the disk at an event, after some events before it. -/
  onProgress : Option (Nat → Progress → Disk → Disk) := none

namespace IndexOptions

def wordOf (b : Bool) : String := if b then "true" else "false"

/-- The options in one line, for logs. What cannot be shown is only said to be there. -/
def description (o : IndexOptions) : String :=
  let exclude := "[" ++ String.intercalate ", " (o.exclude.map Text.quoted) ++ "]"
  "IndexOptions \x7b force: " ++ wordOf o.force ++ ", exclude: " ++ exclude ++
    ", cancel: " ++ wordOf o.cancelled.isSome ++
    ", on_progress: " ++ wordOf o.onProgress.isSome ++ " \x7d"

end IndexOptions

namespace Action

variable {σ α : Type}

def run (action : Action σ α) (w : World σ) : Except IndexError α × World σ :=
  StateT.run (ExceptT.run action) w

def ofExcept (result : Except IndexError α) : Action σ α := ExceptT.mk (pure result)

/-- Tells of progress; whoever is told may change the disk. -/
def tell (options : IndexOptions) (p : Progress) : Action σ Unit :=
  modify fun w =>
    let disk :=
      match options.onProgress with
      | some change => change w.events.length p w.disk
      | none => w.disk
    { w with disk, events := w.events ++ [p] }

def checkCancelled (options : IndexOptions) : Action σ Unit := do
  let w ← get
  set { w with checks := w.checks + 1 }
  match options.cancelled with
  | some cancelled => if cancelled w.events.length w.checks then throw .cancelled
  | none => pure ()

/-- Stops the program unless a condition holds. -/
def assert (holds : Bool) : Action σ Unit := if holds then pure () else throw .panicked

/-- Changes the disk; a failed change leaves it as it is. -/
def changeDisk (change : Disk → Except DiskError Disk) : Action σ Unit := do
  let w ← get
  match change w.disk with
  | .ok disk => set { w with disk }
  | .error _ => throw .io

/-- Replaces a document in one step, through a file beside it. -/
def replaceDocument (path : String) (bytes : List UInt8) : Action σ Unit := do
  let beside := path ++ ".tmp"
  changeDisk (·.write beside bytes)
  changeDisk (·.rename beside path)

end Action

end Lookalike
