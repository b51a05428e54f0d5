import Lookalike.Group.Duplicates
import Lookalike.Index.Documents
import Lookalike.Index.Session
import Lookalike.Text.Basic

/-!
# Answers on the command line

What the commands answer, as lines to read or as a JSON document, and how a failure is told with
what lies behind it.
-/

namespace Lookalike

inductive Answer where
  | indexed (report : IndexReport)
  | groups (groups : List Group)
  | hits (hits : List Hit)
  | stats (stats : IndexStats)
  | deleted (path : String)
  | nothingDeleted (path : String)

section Documents

open Json (ofFields ofText ofNat ofList ofOption ofSingle)

def SkippedFile.toJson (s : SkippedFile) : Json :=
  ofFields [("path", ofText s.path), ("reason", ofText s.reason)]

def FailedChunk.toJson (f : FailedChunk) : Json :=
  ofFields [("id", ofText f.id), ("file_path", ofText f.filePath), ("reason", ofText f.reason)]

def IndexReport.toJson (durationMs : Nat) (r : IndexReport) : Json :=
  ofFields [
    ("files_added", ofNat r.filesAdded),
    ("files_modified", ofNat r.filesModified),
    ("files_deleted", ofNat r.filesDeleted),
    ("files_unchanged", ofNat r.filesUnchanged),
    ("total_chunks", ofNat r.totalChunks),
    ("total_files", ofNat r.totalFiles),
    ("chunks_embedded", ofNat r.chunksEmbedded),
    ("chunks_reused", ofNat r.chunksReused),
    ("chunks_removed", ofNat r.chunksRemoved),
    ("skipped_files", ofList SkippedFile.toJson r.skippedFiles),
    ("failed_chunks", ofList FailedChunk.toJson r.failedChunks),
    ("rebuilt", .bool r.rebuilt),
    ("duration_ms", ofNat durationMs)]

/-- A chunk as a member of a group. -/
def Chunk.memberToJson (c : Chunk) : Json :=
  ofFields [
    ("id", ofText c.id),
    ("name", ofOption ofText c.name),
    ("kind", ofText c.kind.name),
    ("file_path", ofText c.filePath),
    ("start_line", ofNat c.span.startLine.toNat),
    ("end_line", ofNat c.span.endLine.toNat),
    ("text_len", ofNat c.textLength)]

def Group.toJson (g : Group) : Json :=
  ofFields [
    ("id", ofNat g.id),
    ("kind", ofText g.kind.name),
    ("members", ofList Chunk.memberToJson g.members),
    ("avg_similarity", ofSingle g.averageSimilarity),
    ("size_ratio", ofSingle g.sizeRatio),
    ("duplicate_score", ofSingle g.score)]

def Hit.toJson (h : Hit) : Json :=
  ofFields [
    ("id", ofText h.chunk.id),
    ("score", ofSingle h.score),
    ("kind", ofText h.chunk.kind.name),
    ("name", ofOption ofText h.chunk.name),
    ("file_path", ofText h.chunk.filePath),
    ("start_line", ofNat h.chunk.span.startLine.toNat),
    ("end_line", ofNat h.chunk.span.endLine.toNat),
    ("preview", ofText (h.chunk.preview previewLines))]

def IndexStats.toJson (s : IndexStats) : Json :=
  ofFields [
    ("manifest", s.manifest.toJson),
    ("chunks_by_kind", ofFields (s.chunksByKind.map fun (k, n) => (k.name, ofNat n))),
    ("files", ofNat s.files)]

end Documents

section Lines

open Number (fixed)

def IndexReport.lines (durationMs : Nat) (r : IndexReport) : List String :=
  (if r.rebuilt then ["index rebuilt from scratch"] else []) ++
    [s!"files: {r.filesAdded} added, {r.filesModified} modified, " ++
        s!"{r.filesDeleted} deleted, {r.filesUnchanged} unchanged",
      s!"chunks: {r.chunksEmbedded} embedded, {r.chunksReused} reused, " ++
        s!"{r.chunksRemoved} removed, {r.totalChunks} total in {r.totalFiles} files"] ++
    (r.skippedFiles.map fun s => s!"skipped {s.path}: {s.reason}") ++
    (r.failedChunks.map fun f => s!"failed {f.id} ({f.filePath}): {f.reason}") ++
    [s!"done in {durationMs} ms"]

/-- Name and place of a chunk. -/
def Chunk.label (c : Chunk) : String :=
  s!"{c.displayName} {c.filePath}:{c.span.startLine}-{c.span.endLine}"

def Group.lines (g : Group) : List String :=
  let score := fixed 3 g.score
  let similarity := fixed 3 g.averageSimilarity
  let ratio := fixed 2 g.sizeRatio
  s!"group {g.id} [{g.kind.name}] score {score} (similarity {similarity}, size ratio {ratio})" ::
    g.members.map fun c => "  " ++ c.label

def Hit.lines (h : Hit) : List String :=
  let preview := Text.lines (h.chunk.preview previewLines).toList
  (fixed 3 h.score ++ s!" [{h.chunk.kind.name}] " ++ h.chunk.label) ::
    preview.map fun line => "    " ++ String.ofList line

def IndexStats.lines (s : IndexStats) : List String :=
  [s!"model: {s.manifest.model}"] ++
    (s.manifest.dimension.elim [] fun n => [s!"dimension: {n}"]) ++
    [s!"files: {s.files}", s!"chunks: {s.manifest.chunkCount}"] ++
    (s.chunksByKind.map fun (k, n) => s!"  {k.name}: {n}") ++
    [s!"updated: {s.manifest.updatedAt.textWithOffset}"]

end Lines

namespace Answer

def lines (durationMs : Nat) : Answer → List String
  | indexed report => report.lines durationMs
  | groups [] => ["no duplicate groups"]
  | groups gs => gs.flatMap Group.lines
  | hits [] => ["no matches"]
  | hits hs => hs.flatMap Hit.lines
  | stats s => s.lines
  | deleted path => [s!"index of {path} deleted"]
  | nothingDeleted path => [s!"no index at {path}"]

/-- The document of an answer; whether something was deleted is only told in words. -/
def toJson? (durationMs : Nat) : Answer → Option Json
  | indexed report => some (report.toJson durationMs)
  | groups gs => some (Json.ofList Group.toJson gs)
  | hits hs => some (Json.ofList Hit.toJson hs)
  | stats s => some s.toJson
  | deleted _ | nothingDeleted _ => none

/-- What is printed for an answer that took some time. -/
def text (json : Bool) (durationMs : Nat) (a : Answer) : String :=
  match if json then a.toJson? durationMs else none with
  | some document => document.document
  | none => String.join ((a.lines durationMs).map (· ++ "\n"))

end Answer

/-- A failure in the words of those who noticed it, outermost first. -/
structure Failure where
  message : String
  causes : List String := []
  exitCode : UInt8 := 1
  deriving DecidableEq, Repr

namespace Failure

/-- Further lines of a cause are indented as far as its first one. -/
def indented (first next message : String) : String :=
  match message.toList.splitOn '\n' with
  | [] => first
  | line :: rest =>
    first ++ String.ofList (line ++ rest.flatMap fun line => '\n' :: next.toList ++ line)

/-- Causes are numbered from zero if there is more than one. -/
def causeLines : List String → List String
  | [] => []
  | [cause] => [indented "    " "    " cause]
  | causes => causes.zipIdx.map fun (cause, i) =>
    let number := toString i
    let first := String.ofList (List.replicate (5 - number.length) ' ') ++ number ++ ": "
    indented first "       " cause

def text (f : Failure) : String :=
  let causes :=
    if f.causes.isEmpty then ""
    else "\n\nCaused by:\n" ++ String.intercalate "\n" (causeLines f.causes)
  "Error: " ++ f.message ++ causes ++ "\n"

/-- Says what was done when a failure came up. -/
def context (doing : String) (f : Failure) : Failure :=
  { f with message := doing, causes := f.message :: f.causes }

end Failure

/-- What lies behind a failure of embedding. -/
def EmbedError.causes : EmbedError → List String
  | http => ["<cut>"]
  | _ => []

/-- What lies behind a failure of indexing. -/
def IndexError.causes : IndexError → List String
  | io | walk => ["<cut>"]
  | embed cause => cause.message :: cause.causes
  | _ => []

def IndexError.failure (e : IndexError) : Failure :=
  { message := e.message, causes := e.causes, exitCode := if e = .panicked then 101 else 1 }

end Lookalike
