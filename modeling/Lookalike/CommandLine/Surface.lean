import Lookalike.Code.Outline
import Lookalike.CommandLine.Run
import Std.Data.HashMap

/-!
# What an invocation touches

Which files and variables a run of the program looks at, so that whoever starts it can gather them
beforehand, and the form in which parsed sources are handed over: a JSON object for each source,
with its path and its syntax tree.
-/

namespace Lookalike

namespace Environment

/-- The variables that are looked at. -/
def names : List String :=
  ["SIMILI_CONFIG", "SIMILI_EMBEDDING_URL", "SIMILI_EMBEDDING_MODEL", "SIMILI_EMBEDDING_DIMENSION",
    "SIMILI_EMBEDDING_BATCH_SIZE", "SIMILI_EMBEDDING_CONCURRENCY", "SIMILI_EMBEDDING_MAX_RETRIES",
    "SIMILI_DUPLICATES_THRESHOLD", "SIMILI_DUPLICATES_MIN_GROUP_SIZE", "SIMILI_SEARCH_TOP",
    "SIMILI_SEARCH_THRESHOLD"]

end Environment

/-- The folder that a command is about. -/
def Command.root : Command → String
  | .index path _ _ _ => path
  | .dupes path _ _ _ => path
  | .search _ path _ _ => path
  | .similar path _ _ _ => path
  | .stats path => path
  | .clear path => path

/-- Whether a command looks at the sources. -/
def Command.readsSources : Command → Bool
  | .index _ _ _ _ => true
  | _ => false

namespace Invocation

/-- The files beside the sources that an invocation may read. -/
def documentPaths (i : Invocation) (env : Environment) : List String :=
  let folder := indexFolderOf i.command.root
  Config.path i.config env ::
    [manifestName, catalogueName, vectorsName, filesName].map (Path.join folder)

end Invocation

/-- Puts the files that were written in an order that is safe to interrupt: a manifest vouches for
the documents beside it, so manifests come last. -/
def inSafeOrder (written : List (String × Bytes)) : List (String × Bytes) :=
  let isManifest (file : String × Bytes) : Bool := Path.fileName? file.1 = some manifestName
  written.filter (!isManifest ·) ++ written.filter isManifest

/-- A source with its tree; a source with a syntax error has none. -/
structure ParsedSource where
  path : String
  tree : Option SyntaxTree

namespace ParsedSource

def ofJson? (value : Json) : Option ParsedSource := do
  let r ← Json.Record.of? ["path"] value
  return { path := ← r.required? "path" Json.toText?, tree := SyntaxTree.ofJson? value }

/-- The ignore files that may apply to a source, from the top of the tree that its path leads
through. A repository shows by the file that names its current branch. -/
def ignorePaths (s : ParsedSource) : List String :=
  let parts := (Path.components s.path).dropLast
  let folders := (List.range (parts.length + 1)).map fun n => String.intercalate "/" (parts.take n)
  folders.flatMap fun folder =>
    [".ignore", ".gitignore", ".git/info/exclude", ".git/HEAD"].map (Path.join folder)

end ParsedSource

/-- The trees of some texts by language and text. -/
structure ParsedTexts where
  trees : Std.HashMap (String × String) SyntaxTree := ∅

namespace ParsedTexts

def add (p : ParsedTexts) (lang : Language) (text : String) (tree : SyntaxTree) : ParsedTexts :=
  ⟨p.trees.insert (lang.id, text) tree⟩

/-- Adds the tree of a source to which a path leads. -/
def addAt (p : ParsedTexts) (path text : String) (tree : Option SyntaxTree) : ParsedTexts :=
  match Path.language? path, tree with
  | some lang, some tree => p.add lang text tree
  | _, _ => p

def parse (p : ParsedTexts) (lang : Language) (text : String) : Option SyntaxTree :=
  p.trees[(lang.id, text)]?

end ParsedTexts

end Lookalike
