import Lookalike.Digest.Blake3
import Lookalike.SortedMap
import Lookalike.Sorting

/-!
# Snapshots of a source tree

A snapshot maps the path of each file to the digest of its content. The difference of two snapshots
puts every path of either into one of four classes.
-/

namespace Lookalike

abbrev Snapshot := SortedMap String

structure FileDiff where
  added : List String
  modified : List String
  deleted : List String
  unchanged : List String
  deriving DecidableEq, Repr

namespace FileDiff

def hasChanges (d : FileDiff) : Bool :=
  !(d.added.isEmpty && d.modified.isEmpty && d.deleted.isEmpty)

/-- The added and the modified paths, sorted. -/
def toProcess (d : FileDiff) : List String :=
  sorted (fun a b => a ≤ b) (d.added ++ d.modified)

end FileDiff

namespace Snapshot

/-- What happened to a path of the current snapshot. -/
inductive Change where
  | added | modified | unchanged
  deriving DecidableEq

def change (previous : Snapshot) (path hash : String) : Change :=
  match previous.get? path with
  | none => .added
  | some old => if old ≠ hash then .modified else .unchanged

def diff (current previous : Snapshot) : FileDiff :=
  let paths (c : Change) : List String :=
    (current.entries.filter fun (path, hash) => change previous path hash = c).map (·.1)
  { added := paths .added
    modified := paths .modified
    deleted := previous.keys.filter fun path => !current.contains path
    unchanged := paths .unchanged }

end Snapshot

end Lookalike
