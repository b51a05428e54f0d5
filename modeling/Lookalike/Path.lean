import Lookalike.Code.Language

/-!
# Paths

A path is text with slashes. Its components are the names between them; repeated slashes, a slash at
the end and dots inside the path disappear, while a leading slash, a leading dot and double dots are
components of their own.
-/

namespace Lookalike.Path

def isPlain (part : List Char) : Bool := !part.isEmpty && part ≠ ['.']

def components (path : String) : List String :=
  match path.toList.splitOn '/' with
  | [] => []
  | first :: rest =>
    let start :=
      if first.isEmpty then (if path.isEmpty then [] else ["/"]) else [String.ofList first]
    start ++ (rest.filter isPlain).map String.ofList

def join (base rest : String) : String :=
  if rest.startsWith "/" || base.isEmpty then rest
  else if base.endsWith "/" then base ++ rest
  else base ++ "/" ++ rest

/-- The last component, unless it only says where the path starts or leads upwards. -/
def fileName? (path : String) : Option String :=
  (components path).getLast?.filter fun name => name ∉ ["/", ".", ".."]

/-- What follows the last dot of a name; a dot at the very front opens no extension. -/
def extensionOf? (name : List Char) : Option (List Char) :=
  let after := name.reverse.takeWhile (· ≠ '.')
  let before := name.reverse.drop (after.length + 1)
  if before.isEmpty then none else some after.reverse

def extension? (path : String) : Option String := do
  let name ← fileName? path
  return String.ofList (← extensionOf? name.toList)

def language? (path : String) : Option Language := (extension? path).bind Language.ofExtension?

def isIndexable (path : String) : Bool := (language? path).isSome

/-- What is left of a list after another that it starts with. -/
def afterPrefix? : List String → List String → Option (List String)
  | [], rest => some rest
  | _ :: _, [] => none
  | a :: as, b :: bs => if a = b then afterPrefix? as bs else none

/-- The path below a root, by components; none for the root itself and for what is elsewhere. -/
def relative? (root path : String) : Option String :=
  match afterPrefix? (components root) (components path) with
  | none | some [] => none
  | some parts => some (String.intercalate "/" parts)

end Lookalike.Path
