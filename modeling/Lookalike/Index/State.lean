import Lookalike.Disk
import Lookalike.Index.Documents

/-!
# The state of an index

The catalogue, the vectors and the snapshot that belong together under one manifest. What is read
from an index folder has to agree with itself: every chunk has a vector, every vector a chunk, and
the manifest knows their number. The manifest is written last, so a folder without one holds no
index, and once there is one the other documents may not be missing.
-/

namespace Lookalike

structure IndexState where
  manifest : Option Manifest := none
  catalogue : Catalogue := .empty
  table : VectorTable := {}
  files : Snapshot := ∅

namespace IndexState

/-- The state before anything is indexed. The length of the vectors may be known already. -/
def ofDimension (dimension : Option Nat) : IndexState := { table := .ofDimension dimension }

end IndexState

/-- What reading each document of an index folder gives. -/
abbrev IndexContents := String → Except DiskError Bytes

namespace IndexContents

/-- What the documents below a path are on a disk. -/
def ofDisk (d : Disk) (folder : String) : IndexContents :=
  fun name => d.read (Path.join folder name)

variable (folder : String) (contents : IndexContents)

def document {α : Type} (name : String) (read : String → Bytes → Except IndexError α) :
    Except IndexError α :=
  let path := Path.join folder name
  match contents name with
  | .ok bytes => read path bytes
  | .error .notFound => .error (.noIndex path)
  | .error .refused => .error .io

/-- A document that has to be there once there is a manifest. -/
def companion {α : Type} (name : String) (read : String → Bytes → Except IndexError α) :
    Except IndexError α :=
  match document folder contents name read with
  | .error (.noIndex path) => .error (.corruptIndex path s!"missing from {folder}")
  | result => result

def manifest : Except IndexError Manifest := document folder contents manifestName readManifest

end IndexContents

namespace IndexState

/-- Whether a manifest and three stores belong together. -/
def checkAgreement (folder : String) (m : Manifest) (c : Catalogue) (t : VectorTable)
    (files : Snapshot) : Except IndexError Unit :=
  let corrupt (reason : String) : Except IndexError Unit := .error (.corruptIndex folder reason)
  match c.ids.find? fun id => !t.contains id with
  | some id => corrupt s!"chunk {id} has metadata but no vector"
  | none =>
    if c.size ≠ t.size then corrupt s!"{c.size} metadata entries but {t.size} vectors"
    else
      match m.dimension, t.dimension with
      | some expected, some actual =>
        if expected ≠ actual then
          corrupt s!"manifest dimension {expected}, vector store dimension {actual}"
        else m.checkCounts folder c.size files.size
      | _, _ => m.checkCounts folder c.size files.size

/-- The state in an index folder whose manifest was read already. -/
def readStores (folder : String) (contents : IndexContents) (m : Manifest) :
    Except IndexError IndexState := do
  let catalogue ← contents.companion folder catalogueName readCatalogue
  let table ← contents.companion folder vectorsName readVectors
  let files ← contents.companion folder filesName readFiles
  checkAgreement folder m catalogue table files
  return { manifest := some m, catalogue, table, files }

/-- The state in an index folder. -/
def read (folder : String) (contents : IndexContents) : Except IndexError IndexState := do
  readStores folder contents (← contents.manifest folder)

/-- The documents of a state in the order in which they are written. -/
def documents (s : IndexState) (m : Manifest) : List (String × Bytes) :=
  [(catalogueName, documentBytes s.catalogue.toJson),
    (vectorsName, documentBytes s.table.toJson),
    (filesName, documentBytes s.files.toJson),
    (manifestName, documentBytes m.toJson)]

end IndexState

end Lookalike
