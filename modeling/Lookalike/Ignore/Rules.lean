import Lookalike.Ignore.Glob
import Lookalike.Text.Basic

/-!
# Ignore rules

A line of an ignore file is a pattern. A pattern without a slash matches at any depth; a leading
slash ties it to the folder of the file, a trailing one restricts it to folders, and an exclamation
mark in front takes back what earlier rules ignore. The last rule that matches decides.
-/

namespace Lookalike

structure IgnoreRule where
  pattern : Glob
  /-- The rule takes back instead of ignoring. -/
  keeps : Bool
  onlyFolders : Bool

namespace IgnoreRule

open Text (trimEnd)

inductive Line where
  | nothing
  | invalid
  | rule (r : IgnoreRule)

def endsWith (ending text : List Char) : Bool := ending.isSuffixOf text

/-- The pattern that a line stands for: where no slash says otherwise, it may stand below any
folders, and everything below a folder does not mean the folder itself. -/
def anchored (isAbsolute : Bool) (line : List Char) : List Char :=
  let anywhere := !isAbsolute && !line.contains '/' && line ≠ ['*', '*']
  let line := if anywhere then ['*', '*', '/'] ++ line else line
  if endsWith ['/', '*', '*'] line then line ++ ['/', '*'] else line

def ofLine (keepUnclosed : Bool) (line : List Char) : Line :=
  if line.head? = some '#' then .nothing
  else
    let line := if endsWith ['\\', ' '] line then line else trimEnd line
    if line.isEmpty then .nothing
    else
      let escaped := line.take 2 = ['\\', '!'] || line.take 2 = ['\\', '#']
      let keeps := !escaped && line.head? = some '!'
      let line := if escaped || keeps then line.drop 1 else line
      let isAbsolute := line.head? = some '/'
      let line := if isAbsolute && !escaped then line.drop 1 else line
      let onlyFolders := line.getLast? = some '/'
      let line := if onlyFolders then line.dropLast else line
      let line := if onlyFolders && line.getLast? = some '\\' then line.dropLast else line
      match Glob.parse? keepUnclosed (anchored isAbsolute line) with
      | some pattern => .rule { pattern, keeps, onlyFolders }
      | none => .invalid

def applies (r : IgnoreRule) (path : String) (isFolder : Bool) : Bool :=
  (isFolder || !r.onlyFolders) && r.pattern.isMatch path

end IgnoreRule

/-- What some rules say about a path. -/
inductive IgnoreVerdict where
  | silent | ignore | keep
  deriving DecidableEq, Repr

namespace IgnoreVerdict

/-- The first of two verdicts unless it is silent. -/
def orElse (a b : IgnoreVerdict) : IgnoreVerdict := if a = silent then b else a

/-- The verdict of the last rule that applies. -/
def ofRules (rules : List IgnoreRule) (path : String) (isFolder : Bool) : IgnoreVerdict :=
  match rules.reverse.find? (·.applies path isFolder) with
  | some r => if r.keeps then keep else ignore
  | none => silent

end IgnoreVerdict

/-- The valid rules among the lines of an ignore file. -/
def ignoreRules (lines : List (List Char)) : List IgnoreRule :=
  lines.filterMap fun line =>
    match IgnoreRule.ofLine true line with
    | .rule r => some r
    | _ => none

/-- Patterns that exclude what they match, as rules; none if one of them is malformed. An exclusion
is a rule that would take back, read the other way round, so its own exclamation mark is plain. -/
def exclusionRules? (patterns : List String) : Option (List IgnoreRule) := do
  let rules ← patterns.mapM fun (p : String) =>
    match IgnoreRule.ofLine false ('!' :: p.toList) with
    | .rule r => some [{ r with keeps := false }]
    | .nothing => some []
    | .invalid => none
  return rules.flatten

end Lookalike
