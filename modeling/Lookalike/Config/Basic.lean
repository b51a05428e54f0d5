import Lookalike.Embedding.Service
import Lookalike.Index.Session
import Lookalike.Number.Written

/-!
# Configuration

What a user can set: the embedding service, what is indexed and how it is cut, and the defaults of
queries. The parts that need them take their settings from here.
-/

namespace Lookalike

structure EmbeddingConfig where
  baseUrl : String := "http://localhost:11434"
  model : String := "nomic-embed-text"
  dimension : Option Nat := none
  timeoutSeconds : Nat := 30
  maxRetries : Nat := 3
  retryBackoffMs : Nat := 500
  readyTimeoutSeconds : Nat := 20
  batchSize : Nat := 16
  concurrency : Nat := 4
  deriving DecidableEq, Repr

structure IndexConfig where
  exclude : List String := defaultExcludes
  minChunkSize : Nat := 50
  maxChunkChars : Nat := 6000
  deriving DecidableEq, Repr

structure DuplicatesConfig where
  threshold : Float32 := 0.85
  minGroupSize : Nat := 2

structure SearchConfig where
  top : Nat := 10
  threshold : Float32 := 0.5

structure Config where
  embedding : EmbeddingConfig := {}
  index : IndexConfig := {}
  duplicates : DuplicatesConfig := {}
  search : SearchConfig := {}

namespace Config

/-- Whether a similarity lies between minus one and one. -/
def isSimilarity (x : Float32) : Bool := -1.0 ≤ x && x ≤ 1.0

/-- What is wrong with a configuration. The first fault is told. -/
inductive Fault where
  | noBatch
  | noConcurrency
  | noDimension
  | notSimilarity (setting : String) (value : Float32)

def Fault.message : Fault → String
  | noBatch => "embedding.batch_size must be at least 1"
  | noConcurrency => "embedding.concurrency must be at least 1"
  | noDimension => "embedding.dimension must be positive"
  | notSimilarity setting value =>
    s!"{setting} must be within [-1, 1], got {Number.plain value}"

def fault? (c : Config) : Option Fault :=
  if c.embedding.batchSize = 0 then some .noBatch
  else if c.embedding.concurrency = 0 then some .noConcurrency
  else if c.embedding.dimension = some 0 then some .noDimension
  else
    [("duplicates.threshold", c.duplicates.threshold),
      ("search.threshold", c.search.threshold)].findSome? fun (setting, value) =>
        if isSimilarity value then none else some (.notSimilarity setting value)

/-- The settings of the client of the embedding service. -/
def service (c : Config) : ServiceSettings :=
  { baseUrl := c.embedding.baseUrl
    model := c.embedding.model
    dimension := c.embedding.dimension
    requestTimeoutMs := c.embedding.timeoutSeconds * 1000
    maxRetries := UInt32.ofNat c.embedding.maxRetries
    retryBackoffMs := c.embedding.retryBackoffMs
    readyTimeoutMs := c.embedding.readyTimeoutSeconds * 1000 }

/-- The settings of the indexer. -/
def indexer (c : Config) : IndexerSettings :=
  { limits := ⟨c.index.minChunkSize, c.index.maxChunkChars⟩
    exclude := c.index.exclude
    batchSize := c.embedding.batchSize
    concurrency := c.embedding.concurrency }

end Config

end Lookalike
