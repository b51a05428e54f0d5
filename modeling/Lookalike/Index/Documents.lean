import Lookalike.Index.Catalogue
import Lookalike.Index.Manifest
import Lookalike.Index.Snapshot
import Lookalike.Index.VectorTable
import Lookalike.Json.Fields
import Lookalike.Json.Printer
import Lookalike.Json.Reader

/-!
# The documents of an index

An index is kept in four JSON documents: the manifest, the catalogue as an object from identities to
chunks, the vectors, and the snapshot of the files. Here each is written and read.
-/

namespace Lookalike

open Json
open Number (wordBound longBound)

section Manifest

namespace Manifest

def toJson (m : Manifest) : Json :=
  ofFields [
    ("version", ofNat m.version),
    ("model", ofText m.model),
    ("dimension", ofOption ofNat m.dimension),
    ("created_at", ofText m.createdAt.text),
    ("updated_at", ofText m.updatedAt.text),
    ("chunk_count", ofNat m.chunkCount),
    ("file_count", ofNat m.fileCount)]

def fieldNames : List String :=
  ["version", "model", "dimension", "created_at", "updated_at", "chunk_count", "file_count"]

def toTimestamp? (value : Json) : Option Timestamp := (toText? value).bind Timestamp.parse?

def ofJson? (value : Json) : Option Manifest := do
  let r ← Record.of? fieldNames value
  return {
    version := ← r.required? "version" (toNatBelow? wordBound)
    model := ← r.required? "model" toText?
    dimension := ← r.nullable? "dimension" (toNatBelow? longBound)
    createdAt := ← r.required? "created_at" toTimestamp?
    updatedAt := ← r.required? "updated_at" toTimestamp?
    chunkCount := ← r.required? "chunk_count" (toNatBelow? longBound)
    fileCount := ← r.required? "file_count" (toNatBelow? longBound) }

end Manifest

end Manifest

section Chunk

/-- A list that is left out when it is empty. -/
def optionalList (name : String) (items : List String) : List (String × Json) :=
  if items.isEmpty then [] else [(name, ofList ofText items)]

namespace Facts

def toJson (f : Facts) : Json :=
  ofFields (optionalList "params" f.params ++ optionalList "props" f.props ++
    optionalList "hooks" f.hooks ++ [("is_async", .bool f.isAsync), ("exported", .bool f.exported)])

def ofJson? (value : Json) : Option Facts := do
  let r ← Record.of? ["params", "props", "hooks", "is_async", "exported"] value
  return {
    params := ← r.defaulted? "params" [] (toList? toText?)
    props := ← r.defaulted? "props" [] (toList? toText?)
    hooks := ← r.defaulted? "hooks" [] (toList? toText?)
    isAsync := ← r.defaulted? "is_async" false toBool?
    exported := ← r.defaulted? "exported" false toBool? }

end Facts

def lineFields : List String := ["start_line", "start_column", "end_line", "end_column"]

namespace Span

def fields (s : Span) : List (String × Json) :=
  [("start_line", ofNat s.startLine.toNat), ("start_column", ofNat s.startColumn.toNat),
    ("end_line", ofNat s.endLine.toNat), ("end_column", ofNat s.endColumn.toNat)]

def toLong? (value : Json) : Option UInt64 := (toNatBelow? longBound value).map UInt64.ofNat

def ofRecord? (r : Record) : Option Span := do
  return {
    startLine := ← r.required? "start_line" toLong?
    startColumn := ← r.required? "start_column" toLong?
    endLine := ← r.required? "end_line" toLong?
    endColumn := ← r.required? "end_column" toLong? }

end Span

mutual

/-- Whether a value that is set aside can be taken in: its strings are text, its numbers are in
range, and it is not too deep. -/
def isPlain (depth : Nat) : Json → Bool
  | .number n => n.isInRange
  | .string text => text.isSome
  | .array items => 0 < depth && allPlain (depth - 1) items
  | .object members => 0 < depth && allMembersPlain (depth - 1) members
  | _ => true

def allPlain (depth : Nat) : List Json → Bool
  | [] => true
  | item :: items => isPlain depth item && allPlain depth items

def allMembersPlain (depth : Nat) : List (Option String × Json) → Bool
  | [] => true
  | (key, value) :: members => key.isSome && isPlain depth value && allMembersPlain depth members

end

/-- How deep an unknown field of a chunk may be nested. -/
def asideDepth : Nat := 125

namespace Chunk

def toJson (c : Chunk) : Json :=
  ofFields ([
    ("id", ofText c.id),
    ("kind", ofText c.kind.name),
    ("name", ofOption ofText c.name),
    ("file_path", ofText c.filePath),
    ("language", ofText c.language.id)] ++
    (if c.scope.isEmpty then [] else [("scope", ofText c.scope)]) ++
    c.span.fields ++ [
    ("content_hash", ofText c.contentHash),
    ("text", ofText c.text),
    ("facts", c.facts.toJson)])

def ownFields : List String :=
  ["id", "kind", "name", "file_path", "language", "scope", "content_hash", "text", "facts"]

/-- The span lies among the other fields of a chunk, so a chunk has to be an object, and the fields
that are not its own are set aside to be looked through for the span. -/
def ofJson? : Json → Option Chunk
  | .object members => do
    let own ← Record.ofMembers? ownFields members
    let aside := members.filter fun (key, _) => !key.any (· ∈ ownFields)
    guard (allMembersPlain asideDepth aside)
    let span ← Span.ofRecord? (← Record.ofMembers? lineFields aside)
    return {
      id := ← own.required? "id" toText?
      kind := ← own.required? "kind" (toWord? Kind.ofName?)
      name := ← own.nullable? "name" toText?
      filePath := ← own.required? "file_path" toText?
      language := ← own.required? "language" (toWord? Language.ofId?)
      scope := ← own.defaulted? "scope" "" toText?
      span
      contentHash := ← own.required? "content_hash" toText?
      text := ← own.required? "text" toText?
      facts := ← own.defaulted? "facts" {} Facts.ofJson? }
  | _ => none

end Chunk

end Chunk

section Stores

def Catalogue.toJson (c : Catalogue) : Json :=
  ofFields (c.chunks.map fun x => (x.id, x.toJson))

def Embedding.toJson (v : Embedding) : Json := ofList ofSingle v.toList

def Embedding.ofJson? (value : Json) : Option Embedding :=
  (toList? toSingle? value).map List.toArray

def VectorTable.toJson (t : VectorTable) : Json :=
  ofFields [
    ("dimension", ofOption ofNat t.dimension),
    ("vectors", ofMap Embedding.toJson t.vectors)]

def VectorTable.ofJson? (value : Json) : Option VectorTable := do
  let r ← Record.of? ["dimension", "vectors"] value
  return {
    dimension := ← r.nullable? "dimension" (toNatBelow? longBound)
    vectors := ← r.required? "vectors" (toMap? Embedding.ofJson?) }

def Snapshot.toJson (s : Snapshot) : Json := ofMap ofText s

def Snapshot.ofJson? : Json → Option Snapshot := toMap? toText?

end Stores

section Reading

abbrev Bytes := List UInt8

/-- The bytes of a document. -/
def documentBytes (value : Json) : Bytes := (Json.document value).toUTF8.toList

def readManifest (path : String) (bytes : Bytes) : Except IndexError Manifest :=
  match (Json.read? bytes).bind Manifest.ofJson? with
  | some m => .ok m
  | none => .error (.corruptIndex path malformedDocument)

/-- Takes in the members of a catalogue in order; the first that cannot be read and the first whose
key is repeated end the reading. -/
def readEntries (c : Catalogue) : List (Option String × Json) → Except String Catalogue
  | [] => .ok c
  | (key, value) :: rest =>
    match key, Chunk.ofJson? value with
    | some key, some chunk =>
      if c.contains key then .error s!"duplicate chunk id {key}"
      else readEntries (c.put key chunk) rest
    | _, _ => .error malformedDocument

def readCatalogue (path : String) (bytes : Bytes) : Except IndexError Catalogue :=
  let corrupt (reason : String) : Except IndexError Catalogue := .error (.corruptIndex path reason)
  let members := Json.readMembers bytes
  match readEntries .empty members.found with
  | .error reason => corrupt reason
  | .ok c =>
    if !members.complete then corrupt malformedDocument
    else
      match c.ids.find? fun id => (c.get? id).any (·.id ≠ id) with
      | some id => corrupt s!"entry keyed {id} carries a different id"
      | none => .ok c

def readVectors (path : String) (bytes : Bytes) : Except IndexError VectorTable :=
  match (Json.read? bytes).bind VectorTable.ofJson? with
  | none => .error (.corruptIndex path malformedDocument)
  | some t =>
    match t.dimension with
    | none => .ok t
    | some dimension =>
      match t.vectors.entries.find? fun (_, v) => v.size ≠ dimension with
      | some (id, v) =>
        .error (.corruptIndex path
          s!"vector {id} has length {v.size}, index dimension is {dimension}")
      | none => .ok t

def readFiles (path : String) (bytes : Bytes) : Except IndexError Snapshot :=
  match (Json.read? bytes).bind Snapshot.ofJson? with
  | some s => .ok s
  | none => .error (.corruptIndex path malformedDocument)

end Reading

end Lookalike
