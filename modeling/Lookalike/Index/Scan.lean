import Lookalike.Disk
import Lookalike.Ignore.Rules
import Lookalike.Index.Error
import Lookalike.Index.Snapshot
import Lookalike.Text.Basic
import Lookalike.Text.Utf8

/-!
# Scanning a source tree

The snapshot of a tree holds its source files except for those that are excluded, ignored or hidden,
or lie in a folder that is. Exclusions win over ignore files. Among ignore files the general ones
win over those of version control, which count only inside a versioned tree, and deeper ones win
over those above them, also above the root of the scan. An entry whose name starts with a dot is
hidden unless a rule keeps it.
-/

namespace Lookalike.Scan

/-- The lines of an ignore file up to the first that is no text, without a byte order mark. -/
def ignoreLines (bytes : List UInt8) : List (List Char) :=
  let whole (text : List Char) : List (List Char) :=
    match Text.lines text with
    | first :: rest => first.dropWhile (· = '\uFEFF') :: rest
    | [] => []
  match Utf8.decode bytes with
  | .ok text => whole text.toList
  | .error fault => (whole (Utf8.lossy (bytes.take fault.offset)).toList).dropLast

/-- The ignore files of one folder. -/
structure FolderRules where
  general : List IgnoreRule
  versioned : List IgnoreRule
  personal : List IgnoreRule
  isRepository : Bool

def folderRules (d : Disk) (place : Location) : FolderRules :=
  let rules (names : List String) : List IgnoreRule :=
    match d.files.get? (Disk.key (place ++ names)) with
    | some bytes => ignoreRules (ignoreLines bytes)
    | none => []
  { general := rules [".ignore"]
    versioned := rules [".gitignore"]
    personal := rules [".git", "info", "exclude"]
    isRepository := d.isFolder (place ++ [".git"]) || d.isFile (place ++ [".git"]) }

/-- The folders above an entry, nearest first, each with the path from it to the entry. -/
def foldersAbove (place : Location) : List (Location × String) :=
  (List.range place.length).reverse.map fun n => (place.take n, Disk.key (place.drop n))

/-- What the ignore files say, by kind. -/
structure Verdicts where
  general : IgnoreVerdict := .silent
  versioned : IgnoreVerdict := .silent
  personal : IgnoreVerdict := .silent
  /-- A folder with a repository of its own was passed. -/
  leftRepository : Bool := false

def Verdicts.add (isFolder inRepository : Bool) (v : Verdicts) (r : FolderRules) (path : String) :
    Verdicts :=
  let counts := inRepository && !v.leftRepository
  let verdict (rules : List IgnoreRule) := IgnoreVerdict.ofRules rules path isFolder
  { general := v.general.orElse (verdict r.general)
    versioned := if counts then v.versioned.orElse (verdict r.versioned) else v.versioned
    personal := if counts then v.personal.orElse (verdict r.personal) else v.personal
    leftRepository := v.leftRepository || r.isRepository }

/-- The verdict of the ignore files in the folders above an entry. -/
def fileVerdict (d : Disk) (place : Location) (isFolder : Bool) : IgnoreVerdict :=
  let folders := (foldersAbove place).map fun (folder, path) => (folderRules d folder, path)
  let inRepository := folders.any (·.1.isRepository)
  let v := folders.foldl (fun v (rules, path) => v.add isFolder inRepository rules path)
    ({} : Verdicts)
  v.general.orElse (v.versioned.orElse v.personal)

def isHidden (name : String) : Bool := name.toList.head? = some '.'

/-- Whether the walk passes over an entry below the root. -/
def isSkipped (d : Disk) (exclusions : List IgnoreRule) (root names : Location)
    (isFolder : Bool) : Bool :=
  match IgnoreVerdict.ofRules exclusions (Disk.key names) isFolder with
  | .ignore => true
  | .keep => false
  | .silent =>
    match fileVerdict d (root ++ names) isFolder with
    | .ignore => true
    | .keep => false
    | .silent => (names.getLast?).any isHidden

/-- Whether the walk reaches a file: neither it nor a folder on the way is skipped. -/
def isReached (d : Disk) (exclusions : List IgnoreRule) (root names : Location) : Bool :=
  !isSkipped d exclusions root names false &&
    (List.range names.length).all fun n =>
      n = 0 || !isSkipped d exclusions root (names.take n) true

/-- The source files below a root. -/
def sources (d : Disk) (exclusions : List IgnoreRule) (root : Location) :
    List (Location × List UInt8) :=
  (d.filesBelow root).filter fun (names, _) =>
    Path.isIndexable (Disk.key names) && isReached d exclusions root names

/-- The snapshot of the tree at a path. A tree that does not exist is empty. -/
def snapshot (d : Disk) (root : String) (exclude : List String) : Except IndexError Snapshot :=
  match exclusionRules? exclude with
  | none => .error .walk
  | some exclusions =>
    match d.locate root with
    | .error _ => .ok ∅
    | .ok place =>
      .ok (SortedMap.ofList ((sources d exclusions place).map fun (names, bytes) =>
        (Disk.key names, Blake3.hex bytes)))

end Lookalike.Scan
