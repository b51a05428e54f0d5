import Lookalike.Config.Document
import Lookalike.Disk

/-!
# Loading the configuration

A configuration comes from a file, if there is one, and from variables of the environment, which win
over it. A variable whose value cannot be read is passed over.
-/

namespace Lookalike

/-- The variables of the environment by name. -/
abbrev Environment := List (String × String)

namespace Environment

def get? (env : Environment) (name : String) : Option String :=
  (env.find? (·.1 = name)).map (·.2)

/-- The value of a variable, or what is set otherwise. -/
def override {α : Type} (env : Environment) (name : String) (read : String → Option α)
    (otherwise : α) : α :=
  ((env.get? name).bind read).getD otherwise

end Environment

namespace Config

open Number (wordBound longBound readNatural? readSingle?)

def overridden (c : Config) (env : Environment) : Config :=
  let long (name : String) (otherwise : Nat) : Nat :=
    env.override name (readNatural? longBound) otherwise
  { embedding := { c.embedding with
      baseUrl := env.override "SIMILI_EMBEDDING_URL" some c.embedding.baseUrl
      model := env.override "SIMILI_EMBEDDING_MODEL" some c.embedding.model
      dimension := env.override "SIMILI_EMBEDDING_DIMENSION"
        (fun v => (readNatural? longBound v).map some) c.embedding.dimension
      batchSize := long "SIMILI_EMBEDDING_BATCH_SIZE" c.embedding.batchSize
      concurrency := long "SIMILI_EMBEDDING_CONCURRENCY" c.embedding.concurrency
      maxRetries := env.override "SIMILI_EMBEDDING_MAX_RETRIES" (readNatural? wordBound)
        c.embedding.maxRetries }
    index := c.index
    duplicates :=
      { threshold := env.override "SIMILI_DUPLICATES_THRESHOLD" readSingle? c.duplicates.threshold
        minGroupSize := long "SIMILI_DUPLICATES_MIN_GROUP_SIZE" c.duplicates.minGroupSize }
    search :=
      { top := long "SIMILI_SEARCH_TOP" c.search.top
        threshold := env.override "SIMILI_SEARCH_THRESHOLD" readSingle? c.search.threshold } }

/-- The path of the configuration file: the one that is asked for, else that of a variable. -/
def path (flag : Option String) (env : Environment) : String :=
  flag.getD ((env.get? "SIMILI_CONFIG").getD "simili.toml")

inductive LoadError where
  /-- The file cannot be read or is no text. -/
  | unreadable (isText : Bool)
  | malformed
  deriving DecidableEq, Repr

def LoadError.message : LoadError → String
  | unreadable _ => "failed to read config file"
  | malformed => "failed to parse config file"

/-- Reads a configuration file. -/
def ofBytes (bytes : List UInt8) : Except LoadError Config :=
  match Utf8.decode bytes with
  | .error _ => .error (.unreadable false)
  | .ok text =>
    match (Toml.read? text).bind Config.ofToml? with
    | some c => .ok c
    | none => .error .malformed

/-- The configuration at a path; the defaults if there is nothing. -/
def load (d : Disk) (path : String) (env : Environment) : Except LoadError Config :=
  let fromFile : Except LoadError Config :=
    if d.existsAt path then
      match d.read path with
      | .ok bytes => ofBytes bytes
      | .error _ => .error (.unreadable true)
    else .ok {}
  fromFile.map (·.overridden env)

end Config

end Lookalike
