import Lookalike.Index.Error
import Lookalike.Path
import Lookalike.Timestamp

/-!
# The manifest of an index

What was indexed, in which format and with which model, and how much: enough to tell whether the
other documents may be read and whether they belong together.
-/

namespace Lookalike

/-- The format that this version writes and reads. -/
def formatVersion : Nat := 1

def indexFolder : String := ".simili"
def manifestName : String := "manifest.json"
def catalogueName : String := "metadata.json"
def vectorsName : String := "vectors.json"
def filesName : String := "files.json"

/-- The folder that holds the index of a root. -/
def indexFolderOf (root : String) : String := Path.join root indexFolder

structure Manifest where
  version : Nat
  model : String
  dimension : Option Nat
  createdAt : Timestamp
  updatedAt : Timestamp
  chunkCount : Nat
  fileCount : Nat
  deriving DecidableEq, Repr

namespace Manifest

def new (model : String) (dimension : Option Nat) (now : Timestamp) : Manifest :=
  { version := formatVersion, model, dimension, createdAt := now, updatedAt := now
    chunkCount := 0, fileCount := 0 }

/-- Whether an index can be continued with a model: the format and the model have to be the same,
and the vector lengths too where both are known. -/
def checkCompatible (m : Manifest) (model : String) (dimension : Option Nat) :
    Except IndexError Unit :=
  if m.version ≠ formatVersion then
    .error (.incompatibleIndex s!"index format version {m.version} (expected {formatVersion})")
  else if m.model ≠ model then
    .error (.incompatibleIndex
      s!"index built with model {m.model}, configured model is {model}")
  else
    match m.dimension, dimension with
    | some expected, some actual =>
      if expected ≠ actual then .error (.dimensionMismatch expected actual) else .ok ()
    | _, _ => .ok ()

/-- Whether the manifest records the sizes of the stores. -/
def checkCounts (m : Manifest) (folder : String) (chunks files : Nat) : Except IndexError Unit :=
  if m.chunkCount ≠ chunks ∨ m.fileCount ≠ files then
    .error (.corruptIndex (Path.join folder manifestName)
      (s!"manifest records {m.chunkCount} chunks in {m.fileCount} files, " ++
        s!"stores hold {chunks} chunks in {files} files"))
  else .ok ()

end Manifest

end Lookalike
