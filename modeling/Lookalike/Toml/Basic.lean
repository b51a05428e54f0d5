/-!
# TOML values

A document is a table. How a table came about decides what may still be added to it: a header or an
inline value completes it, while a table that is only named on the way to others stays open.
-/

namespace Lookalike

/-- How a table came about. -/
inductive TableOrigin where
  /-- Under a header of its own; also the whole document. -/
  | header
  /-- On the way to the table of a header. -/
  | implied
  /-- On the way to a dotted key. -/
  | dotted
  | inline
  deriving DecidableEq, Repr

inductive Toml where
  | text (value : String)
  | integer (value : Int)
  | float (value : Float)
  | boolean (value : Bool)
  /-- A date, a time or both. -/
  | moment
  | array (items : List Toml)
  | table (origin : TableOrigin) (members : List (String × Toml))
  /-- The tables under headers in double brackets, each with its members. -/
  | tables (items : List (List (String × Toml)))

namespace Toml

abbrev Members := List (String × Toml)

/-- A table that is being built. -/
structure Table where
  origin : TableOrigin
  members : Members

def Table.get? (t : Table) (key : String) : Option Toml :=
  (t.members.find? (·.1 = key)).map (·.2)

/-- Puts a value under a key, in place of one that is there. -/
def Table.set (t : Table) (key : String) (value : Toml) : Table :=
  { t with members := t.members.filter (·.1 ≠ key) ++ [(key, value)] }

/-- Whether a dotted key may lead through a table. -/
def TableOrigin.isOpen : TableOrigin → Bool
  | .implied | .dotted => true
  | .header | .inline => false

/-- Changes the table that some keys lead to; missing tables on the way are created. In arrays of
tables the way leads through the last one. A dotted key leads only through tables that are open, and
no way leads through an inline table. -/
def Table.enter (dotted : Bool) (change : Table → Option Table) : List String → Table → Option Table
  | [], t => change t
  | key :: keys, t =>
    let onwards (u : Table) : Option Table := u.enter dotted change keys
    match t.get? key with
    | none =>
      (onwards ⟨if dotted then .dotted else .implied, []⟩).map fun u =>
        t.set key (.table u.origin u.members)
    | some (.table origin members) =>
      if origin = .inline || (dotted && !TableOrigin.isOpen origin) then none
      else (onwards ⟨origin, members⟩).map fun u => t.set key (.table u.origin u.members)
    | some (.tables items) => do
      let last ← items.getLast?
      let u ← onwards ⟨.header, last⟩
      return t.set key (.tables (items.dropLast ++ [u.members]))
    | some _ => none

/-- Adds a value under a dotted key. The key must be new, and the table that its front part names
must have been created by dotted keys. -/
def Table.add (t : Table) (path : List String) (value : Toml) : Option Table := do
  let key ← path.getLast?
  let front := path.dropLast
  let put (u : Table) : Option Table :=
    if (u.get? key).isSome || (!front.isEmpty && u.origin ≠ .dotted) then none
    else some (u.set key value)
  t.enter true put front

/-- Opens the table of a header. It may have been implied by other headers, but not more. -/
def Table.openHeader (t : Table) (path : List String) : Option Table := do
  let key ← path.getLast?
  let openIn (u : Table) : Option Table :=
    match u.get? key with
    | none => some (u.set key (.table .header []))
    | some (.table .implied members) => some (u.set key (.table .header members))
    | some _ => none
  t.enter false openIn path.dropLast

/-- Appends a table to the array of a header in double brackets. -/
def Table.openItem (t : Table) (path : List String) : Option Table := do
  let key ← path.getLast?
  let append (u : Table) : Option Table :=
    match u.get? key with
    | none => some (u.set key (.tables [[]]))
    | some (.tables items) => some (u.set key (.tables (items ++ [[]])))
    | some _ => none
  t.enter false append path.dropLast

/-- One line of a document. -/
inductive Statement where
  | header (path : List String)
  | item (path : List String)
  | pair (path : List String) (value : Toml)

/-- Carries out some lines; `current` leads to the table that the next pairs belong to. -/
def Table.extend (t : Table) (current : List String) : List Statement → Option Table
  | [] => some t
  | .header path :: rest => do (← t.openHeader path).extend path rest
  | .item path :: rest => do (← t.openItem path).extend path rest
  | .pair path value :: rest => do
    (← t.enter false (·.add path value) current).extend current rest

/-- The document that some lines make up. -/
def ofStatements? (lines : List Statement) : Option Toml :=
  (Table.extend ⟨.header, []⟩ [] lines).map fun t => .table t.origin t.members

/-- Adds pairs one after the other. -/
def Table.addAll (t : Table) : List (List String × Toml) → Option Table
  | [] => some t
  | (path, value) :: rest => do (← t.add path value).addAll rest

/-- The inline table that some pairs make up. -/
def ofPairs? (pairs : List (List String × Toml)) : Option Toml :=
  (Table.addAll ⟨.inline, []⟩ pairs).map fun t => .table .inline t.members

end Toml

end Lookalike
