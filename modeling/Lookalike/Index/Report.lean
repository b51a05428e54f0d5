/-!
# Progress and reports

What a run of the indexer tells while it goes on, and what it tells at the end.
-/

namespace Lookalike

inductive Phase where
  | idle | scanning | diffing | chunking | embedding | persisting | failed
  deriving DecidableEq, Repr

def Phase.name : Phase → String
  | idle => "idle"
  | scanning => "scanning"
  | diffing => "diffing"
  | chunking => "chunking"
  | embedding => "embedding"
  | persisting => "persisting"
  | failed => "failed"

/-- One step of a phase: how much of it is done, and the file at hand. -/
structure Progress where
  phase : Phase
  current : Nat := 0
  total : Nat := 0
  file : Option String := none
  deriving DecidableEq, Repr

structure SkippedFile where
  path : String
  reason : String
  deriving DecidableEq, Repr

structure FailedChunk where
  id : String
  filePath : String
  reason : String
  deriving DecidableEq, Repr

structure IndexReport where
  filesAdded : Nat := 0
  filesModified : Nat := 0
  filesDeleted : Nat := 0
  filesUnchanged : Nat := 0
  totalChunks : Nat := 0
  totalFiles : Nat := 0
  chunksEmbedded : Nat := 0
  chunksReused : Nat := 0
  chunksRemoved : Nat := 0
  skippedFiles : List SkippedFile := []
  failedChunks : List FailedChunk := []
  /-- An index that was there was discarded. -/
  rebuilt : Bool := false
  deriving DecidableEq, Repr

end Lookalike
