import Lookalike.Code.Language
import Lookalike.Code.Tree
import Lookalike.Text.Basic

/-!
# Units

A unit is a node that becomes a chunk: a declaration, a function value under the name it is bound
to, a function value that is bound to none, or a class that is a component. `unit?` decides it for
one node, and `units` collects the outermost units of a tree in source order, each with the scopes
and the nodes it stands below.
-/

namespace Lookalike

structure CodeUnit where
  /-- The node whose range the chunk covers. -/
  anchor : SyntaxTree
  /-- The function or class itself. -/
  body : SyntaxTree
  name : Option String
  isClass : Bool := false

namespace CodeUnit

/-- Calls that hand their argument through, so that it keeps the name the result is bound to. -/
def transparentCalls : List String :=
  ["memo", "forwardRef", "observer", "React.memo", "React.forwardRef"]

section Unwrap

variable (lang : Language) (source : String)

mutual

/-- The function that an expression stands for: itself, or the first thing in parentheses, or the
first argument of a transparent call. -/
def functionValue? : SyntaxTree → Option SyntaxTree
  | t@(.node kind _ _ _ _ children) =>
    if kind ∈ lang.functionValues then some t
    else if kind = "parenthesized_expression" then firstFunctionValue? children
    else if kind = "call_expression" then
      match t.fieldText? source .function with
      | some callee =>
        if callee ∈ transparentCalls then argumentFunctionValue? children else none
      | none => none
    else none

/-- The function that the first named node of a list stands for. -/
def firstFunctionValue? : List SyntaxTree → Option SyntaxTree
  | [] => none
  | t :: rest => if t.isNamed then functionValue? t else firstFunctionValue? rest

/-- The function that the first argument of a call stands for. -/
def argumentFunctionValue? : List SyntaxTree → Option SyntaxTree
  | [] => none
  | .node _ _ field _ _ args :: rest =>
    if field = some .arguments then firstFunctionValue? args else argumentFunctionValue? rest

end

end Unwrap

variable (lang : Language) (source : String)

def isQuote (c : Char) : Bool := c = '"' || c = '\'' || c = '\x60'

/-- A key without the quotes around it. -/
def unquoted (key : String) : String :=
  String.ofList ((key.toList.dropWhile isQuote).reverse.dropWhile isQuote).reverse

/-- `name = function`: the unit is the declarator, unless the name is a pattern. -/
def ofDeclarator? (t : SyntaxTree) : Option CodeUnit := do
  let name ← t.child? .name
  guard (name.kind = "identifier")
  let body ← functionValue? lang source (← t.child? .value)
  return { anchor := t, body, name := some (name.text source) }

/-- A declaration with one declarator is a unit as a whole; with more than one, each is its own. -/
def ofDeclaration? (t : SyntaxTree) : Option CodeUnit :=
  match t.namedChildren.filter (·.kind = "variable_declarator") with
  | [declarator] => (ofDeclarator? lang source declarator).map fun u => { u with anchor := t }
  | _ => none

/-- `key: function` in an object. -/
def ofPair? (t : SyntaxTree) : Option CodeUnit := do
  let body ← functionValue? lang source (← t.child? .value)
  let key ← t.fieldText? source .key
  return { anchor := t, body, name := some (unquoted key) }

/-- `x = function` or `object.x = function`. -/
def ofAssignment? (t : SyntaxTree) : Option CodeUnit := do
  let body ← functionValue? lang source (← t.child? .right)
  let left ← t.child? .left
  let name :=
    if left.kind = "member_expression" then left.fieldText? source .property
    else if left.kind = "identifier" then some (left.text source)
    else none
  return { anchor := t, body, name }

/-- A class field whose value is a function. -/
def ofClassField? (t : SyntaxTree) : Option CodeUnit := do
  let body ← functionValue? lang source (← t.child? .value)
  return { anchor := t, body,
           name := t.fieldText? source .name <|> t.fieldText? source .property }

/-- Whether a class extends something whose name speaks of a component. -/
def extendsComponent (t : SyntaxTree) : Bool :=
  match t.namedChildren.find? (·.kind = "class_heritage") with
  | some heritage => Text.containsText (heritage.text source) "Component"
  | none => false

/-- A function value under the name it is bound to, or a component class. -/
def ofBinding? (t : SyntaxTree) : Option CodeUnit :=
  match t.kind with
  | "lexical_declaration" | "variable_declaration" => ofDeclaration? lang source t
  | "variable_declarator" => ofDeclarator? lang source t
  | "pair" => ofPair? lang source t
  | "assignment_expression" => ofAssignment? lang source t
  | "public_field_definition" | "field_definition" => ofClassField? lang source t
  | "class_declaration" | "class" =>
    if extendsComponent source t then
      some { anchor := t, body := t, name := t.fieldText? source .name, isClass := true }
    else none
  | _ => none

/-- The unit that a node is. -/
def ofNode? (t : SyntaxTree) : Option CodeUnit :=
  let plain : CodeUnit := { anchor := t, body := t, name := t.fieldText? source .name }
  if t.kind ∈ lang.declarations then some plain
  else
    (if lang.hasRoles then ofBinding? lang source t else none) <|>
      (if t.kind ∈ lang.functionValues then some plain else none)

/-- A unit of a tree with what it stands below. -/
structure Placed where
  unit : CodeUnit
  /-- Names of the scopes around it, outermost first. -/
  scopes : List String
  /-- Kinds of the nodes above it, nearest first. -/
  above : List String

/-- The name under which a container shows in scopes. -/
def scopeName (t : SyntaxTree) : String :=
  (t.fieldText? source .name <|> t.fieldText? source .type).getD t.kind

mutual

/-- The outermost units at or below a node, in source order. -/
def unitsFrom (scopes above : List String) : SyntaxTree → List Placed
  | t@(.node kind _ _ _ _ children) =>
    match ofNode? lang source t with
    | some unit => [{ unit, scopes, above }]
    | none =>
      unitsBelow (if kind ∈ lang.scopes then scopes ++ [scopeName source t] else scopes)
        (kind :: above) children

def unitsBelow (scopes above : List String) : List SyntaxTree → List Placed
  | [] => []
  | t :: rest =>
    (if t.isNamed then unitsFrom scopes above t else []) ++ unitsBelow scopes above rest

end

/-- The outermost units below the root of a tree. -/
def units (root : SyntaxTree) : List Placed :=
  unitsBelow lang source [] [root.kind] root.children

end CodeUnit

end Lookalike
