import Lookalike.Code.Tree
import Lookalike.Json.Fields

/-!
# Syntax trees in JSON

The form in which a parser hands a syntax tree over: a table of node kinds, and a flat list with
five numbers for each node, which comes before what is below it: its depth, the place of its kind in
the table, the number of its field or minus one, and its first and last offset. A kind that starts
with a tilde is that of nodes that are not named.
-/

namespace Lookalike.SyntaxTree

/-- The fields in the order of their numbers. -/
def fieldOrder : List Field :=
  [.name, .type, .value, .key, .right, .left, .property, .function, .arguments, .parameters,
    .parameter, .pattern]

/-- The field of a number; a negative one stands for no field. -/
def toField? : Json → Option (Option Field)
  | .number n =>
    if n.negative then some none
    else (n.toNat?.bind (fieldOrder[·]?)).map some
  | _ => none

def toOutline? (kinds : Array String) (depth kind field start stop : Json) : Option Outline := do
  let number (value : Json) : Option Nat := Json.toNatBelow? Number.longBound value
  let written ← kinds[← number kind]?
  let (named, kind) :=
    match written.toList with
    | '~' :: rest => (false, String.ofList rest)
    | _ => (true, written)
  return ⟨← number depth, kind, named, ← toField? field, ← number start, ← number stop⟩

def toOutlines? (kinds : Array String) : List Json → Option (List Outline)
  | [] => some []
  | depth :: kind :: field :: start :: stop :: rest => do
    let node ← toOutline? kinds depth kind field start stop
    return node :: (← toOutlines? kinds rest)
  | _ => none

def ofJson? (value : Json) : Option SyntaxTree := do
  let r ← Json.Record.of? ["kinds", "nodes"] value
  let kinds ← r.required? "kinds" (Json.toList? Json.toText?)
  let nodes ← r.required? "nodes" (Json.toList? some)
  ofOutline? (← toOutlines? kinds.toArray nodes)

end Lookalike.SyntaxTree
