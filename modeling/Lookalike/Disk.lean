import Lookalike.Path
import Lookalike.SortedMap
import Lookalike.Sorting

/-!
# Disks

The part of a file system that is looked at: files with their contents and folders, by their
locations, and the folder that relative paths start from. A location is the list of the names that
lead to it from the top.
-/

namespace Lookalike

abbrev Location := List String

inductive DiskError where
  | notFound
  /-- The path leads through a file, or to the wrong sort of entry. -/
  | refused
  deriving DecidableEq, Repr

structure Disk where
  files : SortedMap (List UInt8) := ∅
  folders : SortedMap Unit := ∅
  workingFolder : Location := []
  deriving DecidableEq

namespace Disk

/-- The text that stands for a location in the maps. -/
def key (place : Location) : String := String.intercalate "/" place

def isFolder (d : Disk) (place : Location) : Bool := place.isEmpty || d.folders.contains (key place)

def isFile (d : Disk) (place : Location) : Bool := d.files.contains (key place)

/-- Follows the components of a path; all of them have to exist. -/
def follow (d : Disk) (place : Location) : List String → Except DiskError Location
  | [] => .ok place
  | "/" :: rest => d.follow [] rest
  | "." :: rest => d.follow place rest
  | ".." :: rest => if d.isFolder place then d.follow place.dropLast rest else .error .refused
  | name :: rest =>
    let next := place ++ [name]
    if d.isFolder place then
      if d.isFolder next || d.isFile next then d.follow next rest else .error .notFound
    else .error .refused

/-- The location of an existing entry. -/
def locate (d : Disk) (path : String) : Except DiskError Location :=
  if path.isEmpty then .error .notFound else d.follow d.workingFolder (Path.components path)

/-- The location at which an entry of some name may be created or replaced. -/
def locateNew (d : Disk) (path : String) : Except DiskError Location :=
  let parts := Path.components path
  match parts.getLast? with
  | none => .error .notFound
  | some name =>
    match d.follow d.workingFolder parts.dropLast with
    | .error e => .error e
    | .ok place => if d.isFolder place then .ok (place ++ [name]) else .error .refused

def existsAt (d : Disk) (path : String) : Bool := (d.locate path).isOk

def isFileAt (d : Disk) (path : String) : Bool :=
  match d.locate path with
  | .ok place => d.isFile place
  | .error _ => false

/-- The absolute path of a location. -/
def pathOf (place : Location) : String := "/" ++ key place

/-- The absolute path without detours, of an existing entry. -/
def canonical (d : Disk) (path : String) : Except DiskError String :=
  (d.locate path).map pathOf

def read (d : Disk) (path : String) : Except DiskError (List UInt8) :=
  match d.locate path with
  | .error e => .error e
  | .ok place =>
    match d.files.get? (key place) with
    | some bytes => .ok bytes
    | none => .error .refused

def write (d : Disk) (path : String) (bytes : List UInt8) : Except DiskError Disk :=
  match d.locateNew path with
  | .error e => .error e
  | .ok place =>
    if d.isFolder place then .error .refused
    else .ok { d with files := d.files.insert (key place) bytes }

/-- Moves a file over another or to a new place. -/
def rename (d : Disk) (old new : String) : Except DiskError Disk :=
  match d.locate old, d.locateNew new with
  | .ok a, .ok b =>
    match d.files.get? (key a) with
    | some bytes =>
      if d.isFolder b then .error .refused
      else .ok { d with files := (d.files.erase (key a)).insert (key b) bytes }
    | none => .error .refused
  | .error e, _ => .error e
  | _, .error e => .error e

/-- Creates the folders that a path names and that are missing. -/
def createFrom (d : Disk) (place : Location) : List String → Except DiskError Disk
  | [] => .ok d
  | "/" :: rest => d.createFrom [] rest
  | "." :: rest => d.createFrom place rest
  | ".." :: rest => d.createFrom place.dropLast rest
  | name :: rest =>
    let next := place ++ [name]
    if d.isFile next then .error .refused
    else if d.isFolder next then d.createFrom next rest
    else createFrom { d with folders := d.folders.insert (key next) () } next rest

def createFolders (d : Disk) (path : String) : Except DiskError Disk :=
  d.createFrom d.workingFolder (Path.components path)

/-- Puts a file at a path and creates the folders that lead to it, where nothing is in the way. -/
def withFile (d : Disk) (path : String) (bytes : List UInt8) : Disk :=
  let folders := (Path.components path).dropLast
  ((d.createFrom d.workingFolder folders).bind (·.write path bytes)).toOption.getD d

/-- The files that are new or different on another disk, by their absolute paths. -/
def writtenOn (d later : Disk) : List (String × List UInt8) :=
  (later.files.entries.filter fun (k, bytes) => d.files.get? k ≠ some bytes).map fun (k, bytes) =>
    ("/" ++ k, bytes)

/-- The files and folders that are gone from another disk, deeper ones first. -/
def removedOn (d later : Disk) : List String × List String :=
  let gone (keys : List String) (stays : String → Bool) : List String :=
    ((keys.filter (!stays ·)).map ("/" ++ ·)).reverse
  (gone d.files.keys later.files.contains, gone d.folders.keys later.folders.contains)

/-- Whether a key names an entry at or below a location. -/
def isWithin (place : Location) (k : String) : Bool :=
  place.isEmpty || k = key place || (key place ++ "/").toList.isPrefixOf k.toList

/-- Removes an entry with everything below it. -/
def removeAt (d : Disk) (place : Location) : Disk :=
  { d with
    files := d.files.filter fun k _ => !isWithin place k
    folders := d.folders.filter fun k _ => !isWithin place k }

/-- Removes a folder with everything below it. -/
def removeFolder (d : Disk) (path : String) : Except DiskError Disk :=
  match d.locate path with
  | .error e => .error e
  | .ok place => if d.isFile place then .error .refused else .ok (d.removeAt place)

/-- What is left of a key below a location, by components. -/
def below? (place : Location) (k : String) : Option Location :=
  let names := (k.toList.splitOn '/').map String.ofList
  if place.isPrefixOf names && place.length < names.length then some (names.drop place.length)
  else none

/-- The names of the entries in a folder, sorted. -/
def names (d : Disk) (place : Location) : List String :=
  let nameOf (k : String) : Option String :=
    match below? place k with
    | some [name] => some name
    | _ => none
  sorted (fun a b => a ≤ b) ((d.files.keys ++ d.folders.keys).filterMap nameOf)

/-- The files below a location, with the names that lead to each from there. -/
def filesBelow (d : Disk) (place : Location) : List (Location × List UInt8) :=
  d.files.entries.filterMap fun (k, bytes) => (below? place k).map fun names => (names, bytes)

end Disk

end Lookalike
