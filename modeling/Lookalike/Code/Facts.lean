import Lookalike.Code.Chunk
import Lookalike.Code.Unit
import Lookalike.Text.Upper

/-!
# Roles and facts of a unit

What is read off a unit beside its text: its role, the names of its parameters, the properties and
hooks of a component, and whether it is asynchronous and exported.
-/

namespace Lookalike.CodeUnit

/-- `useThing` and `use2D`, but neither `user` nor `use`. -/
def isHookName (name : String) : Bool :=
  match name.toList with
  | 'u' :: 's' :: 'e' :: c :: _ => c.isUpper || c.isDigit
  | _ => false

/-- `UserCard`, but neither `userCard` nor `MAX_SIZE`. -/
def isPascalCase (name : String) : Bool :=
  (name.toList.head?.any Char.isUpper) && name.toList.any Char.isLower

def markupKinds : List String := ["jsx_element", "jsx_self_closing_element", "jsx_fragment"]

/-- Whether a node is or holds an element of markup. -/
def holdsMarkup (t : SyntaxTree) : Bool := t.anyNamed (·.kind ∈ markupKinds)

/-- The role of a unit. Outside the languages with roles only a name makes it a function. -/
def role (lang : Language) (u : CodeUnit) : Kind :=
  if !lang.hasRoles then
    if u.name.isSome then .function else .other
  else if u.isClass then .component
  else
    match u.name with
    | some name =>
      if isHookName name then .hook
      else if isPascalCase name && holdsMarkup u.body then .component
      else .function
    | none => if holdsMarkup u.body then .component else .other

section Names

variable (source : String)

mutual

/-- The name that a parameter is declared under; patterns that take a value apart have none. -/
def paramName? : SyntaxTree → Option String
  | t@(.node kind _ _ _ _ children) =>
    if kind ∈ ["identifier", "self_parameter", "self"] then some (t.text source)
    else if kind ∈ ["object_pattern", "array_pattern", "comment"] then none
    else
      (paramNameAt? (·.field? = some .pattern) children <|>
        paramNameAt? (·.field? = some .name) children <|>
        paramNameAt? (·.field? = some .left) children <|>
        paramNameAt? (fun c => c.isNamed && c.kind = "identifier") children).join

/-- The name read from the first node of a list that is picked out, if there is one. -/
def paramNameAt? (pick : SyntaxTree → Bool) : List SyntaxTree → Option (Option String)
  | [] => none
  | t :: rest => if pick t then some (paramName? t) else paramNameAt? pick rest

end

/-- The property that one part of an object pattern takes out. -/
def propName? (t : SyntaxTree) : Option String :=
  match t.kind with
  | "shorthand_property_identifier_pattern" | "rest_pattern" => some (t.text source)
  | "pair_pattern" => t.fieldText? source .key
  | "object_assignment_pattern" => t.fieldText? source .left
  | _ => none

mutual

/-- The properties that a parameter takes out of its argument. -/
def propNames : SyntaxTree → List String
  | t@(.node kind _ _ _ _ children) =>
    if kind = "object_pattern" then t.namedChildren.filterMap (propName? source)
    else
      ((propNamesAt? .pattern children) <|> (propNamesAt? .left children)).getD []

def propNamesAt? (field : Field) : List SyntaxTree → Option (List String)
  | [] => none
  | t :: rest => if t.field? = some field then some (propNames t) else propNamesAt? field rest

end

/-- The hook that a call calls, by its own name or as a member of something. -/
def calledHook? (t : SyntaxTree) : Option String := do
  guard (t.kind = "call_expression")
  let callee ← t.child? .function
  let name ←
    if callee.kind = "identifier" then some (callee.text source)
    else if callee.kind = "member_expression" then callee.fieldText? source .property
    else none
  guard (isHookName name)
  return name

mutual

/-- The hooks called in a node, in source order, with repetitions. -/
def hookCalls : SyntaxTree → List String
  | t@(.node _ _ _ _ _ children) => (calledHook? source t).toList ++ hookCallsIn children

def hookCallsIn : List SyntaxTree → List String
  | [] => []
  | t :: rest => (if t.isNamed then hookCalls t else []) ++ hookCallsIn rest

end

/-- Keeps the first of equal names. -/
def distinct (names : List String) : List String :=
  names.foldl (fun seen name => if name ∈ seen then seen else seen ++ [name]) []

/-- The nodes that stand for the parameters of a function. -/
inductive Parameters where
  | single (t : SyntaxTree)
  | listed (ts : List SyntaxTree)

def parameters (body : SyntaxTree) : Parameters :=
  match body.child? .parameters <|> body.child? .parameter with
  | some t => if t.kind = "identifier" then .single t else .listed t.namedChildren
  | none => .listed []

def isAsync (body : SyntaxTree) : Bool :=
  body.children.any fun c =>
    c.kind = "async" ||
      (c.kind = "function_modifiers" && Text.containsText (c.text source) "async")

end Names

/-- Whether a unit is visible outside its file. In the languages with roles an export statement
stands above it with nothing but declarations between; in the others the name or a modifier of the
unit says so. -/
def isExported (lang : Language) (p : Placed) : Bool :=
  match lang with
  | .javascript | .typescript | .tsx =>
    (p.above.dropWhile (· ∈ ["lexical_declaration", "variable_declaration"])).head? =
      some "export_statement"
  | .rust => p.unit.body.namedChildren.any (·.kind = "visibility_modifier")
  | .go => (p.unit.name.bind (·.toList.head?)).any Text.isUpper
  | .python => p.unit.name.any fun name => name.toList.head? ≠ some '_'

def facts (lang : Language) (source : String) (p : Placed) : Facts :=
  let body := p.unit.body
  { params :=
      match parameters body with
      | .single t => [t.text source]
      | .listed ts => ts.filterMap (paramName? source)
    props :=
      match parameters body with
      | .single _ => []
      | .listed ts => if lang.hasRoles then (ts.head?.map (propNames source)).getD [] else []
    hooks := if lang.hasRoles then distinct (hookCalls source body) else []
    isAsync := isAsync source body
    exported := isExported lang p }

end Lookalike.CodeUnit
