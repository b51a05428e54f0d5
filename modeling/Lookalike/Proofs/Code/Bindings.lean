import Lookalike.Code.Unit
import Lookalike.Proofs.Code.Trees
import Mathlib.Data.Option.Basic

/-!
# Bindings

A function value goes by the name it is bound to, through parentheses and through calls that hand
their argument on. What binds a function is told here apart from what a function is found in: a node
binds an expression to a name, and an expression that is no function stands for the first named node
that its wrapper holds.
-/

namespace Lookalike

namespace CodeUnit

open SyntaxTree

section Values

variable {lang : Language} {source : String} {t : SyntaxTree}

/-- What holds the node that a wrapper stands for: parentheses do themselves, and a transparent call
has its arguments. -/
def wrapper? (source : String) (t : SyntaxTree) : Option SyntaxTree :=
  if t.kind = "parenthesized_expression" then some t
  else if t.kind = "call_expression" then
    match t.fieldText? source .function with
    | some callee => if callee ∈ transparentCalls then t.child? .arguments else none
    | none => none
  else none

theorem firstFunctionValue?_eq (ts : List SyntaxTree) : firstFunctionValue? lang source ts =
    (ts.filter isNamed).head?.bind (functionValue? lang source) := by
  induction ts with
  | nil => simp [firstFunctionValue?]
  | cons t ts ih =>
    rw [firstFunctionValue?]
    split
    next named => rw [List.filter_cons_of_pos named, List.head?_cons, Option.bind_some]
    next unnamed => rw [List.filter_cons_of_neg unnamed, ih]

theorem argumentFunctionValue?_cons (t : SyntaxTree) (rest : List SyntaxTree) :
    argumentFunctionValue? lang source (t :: rest) =
      if t.field? = some .arguments then firstFunctionValue? lang source t.children
      else argumentFunctionValue? lang source rest := by
  cases t
  rw [argumentFunctionValue?]
  rfl

theorem argumentFunctionValue?_eq (ts : List SyntaxTree) : argumentFunctionValue? lang source ts =
    (ts.find? (·.field? = some .arguments)).bind fun held =>
      held.namedChildren.head?.bind (functionValue? lang source) := by
  induction ts with
  | nil => simp [argumentFunctionValue?]
  | cons t ts ih =>
    rw [argumentFunctionValue?_cons]
    split
    next here =>
      rw [firstFunctionValue?_eq, List.find?_cons_of_pos (by simpa using here)]
      rfl
    next elsewhere => rw [List.find?_cons_of_neg (by simpa using elsewhere), ih]

theorem functionValue?_step (t : SyntaxTree) : functionValue? lang source t =
    if t.kind ∈ lang.functionValues then some t
    else if t.kind = "parenthesized_expression" then firstFunctionValue? lang source t.children
    else if t.kind = "call_expression" then
      match t.fieldText? source .function with
      | some callee =>
        if callee ∈ transparentCalls then argumentFunctionValue? lang source t.children else none
      | none => none
    else none := by
  cases t
  rw [functionValue?]
  rfl

/-- An expression that is no function stands for the first named node that its wrapper holds. -/
theorem functionValue?_eq (t : SyntaxTree) : functionValue? lang source t =
    if t.kind ∈ lang.functionValues then some t
    else (wrapper? source t).bind fun held =>
      held.namedChildren.head?.bind (functionValue? lang source) := by
  rw [functionValue?_step, wrapper?, firstFunctionValue?_eq, argumentFunctionValue?_eq]
  repeat' split
  all_goals rfl

theorem wrapper?_cases {held : SyntaxTree} (wrapped : wrapper? source t = some held) :
    (t.kind = "parenthesized_expression" ∧ held = t) ∨
      (t.kind = "call_expression" ∧ t.child? .arguments = some held) := by
  rw [wrapper?] at wrapped
  split at wrapped
  next parens => exact .inl ⟨parens, (Option.some.inj wrapped).symm⟩
  next =>
    split at wrapped
    next call =>
      split at wrapped
      next =>
        split at wrapped
        next => exact .inr ⟨call, wrapped⟩
        next => cases wrapped
      next => cases wrapped
    next => cases wrapped

/-- What a wrapper holds is below it. -/
theorem below_of_wrapper? {held c : SyntaxTree} (wrapped : wrapper? source t = some held)
    (first : held.namedChildren.head? = some c) : c ∈ nodesOf t.children := by
  have child : c ∈ held.children := List.mem_of_mem_filter (List.mem_of_head? first)
  rcases wrapper?_cases wrapped with ⟨_, rfl⟩ | ⟨_, arguments⟩
  · exact mem_nodesOf_of_mem child
  · refine mem_nodesOf_iff.mpr ⟨held, List.mem_of_find?_eq_some arguments, ?_⟩
    exact mem_nodes_iff.mpr (.inr ⟨c, child, mem_nodes_iff.mpr (.inl rfl)⟩)

theorem not_functionValue_of_wrapper? {held : SyntaxTree}
    (wrapped : wrapper? source t = some held) : t.kind ∉ lang.functionValues := by
  rcases wrapper?_cases wrapped with ⟨kind, _⟩ | ⟨kind, _⟩
  · rw [kind]
    cases lang <;> decide
  · rw [kind]
    cases lang <;> decide

end Values

/-- An expression with the name that it is bound to, if that can be told. -/
structure Binding where
  value : SyntaxTree
  name : Option String

section Bindings

variable {lang : Language} {source : String} {t : SyntaxTree}

/-- A declarator binds its value to its name, unless this is a pattern. -/
def declared? (source : String) (t : SyntaxTree) : Option Binding := do
  let name ← t.child? .name
  guard (name.kind = "identifier")
  return { value := ← t.child? .value, name := some (name.text source) }

def solelyDeclared? (source : String) (t : SyntaxTree) : Option Binding :=
  match t.namedChildren.filter (·.kind = "variable_declarator") with
  | [declarator] => declared? source declarator
  | _ => none

def pairBinding? (source : String) (t : SyntaxTree) : Option Binding := do
  let value ← t.child? .value
  return { value, name := some (unquoted (← t.fieldText? source .key)) }

def assigned? (source : String) (t : SyntaxTree) : Option Binding := do
  let value ← t.child? .right
  let left ← t.child? .left
  let name :=
    if left.kind = "member_expression" then left.fieldText? source .property
    else if left.kind = "identifier" then some (left.text source)
    else none
  return { value, name }

def classField? (source : String) (t : SyntaxTree) : Option Binding := do
  return { value := ← t.child? .value,
           name := t.fieldText? source .name <|> t.fieldText? source .property }

/-- What a node binds, if it is one of those whose functions are units under a name. -/
def binding? (source : String) (t : SyntaxTree) : Option Binding :=
  match t.kind with
  | "lexical_declaration" | "variable_declaration" => solelyDeclared? source t
  | "variable_declarator" => declared? source t
  | "pair" => pairBinding? source t
  | "assignment_expression" => assigned? source t
  | "public_field_definition" | "field_definition" => classField? source t
  | _ => none

/-- The unit at a node that binds something, if that stands for a function. -/
def Binding.unit? (lang : Language) (source : String) (anchor : SyntaxTree) (b : Binding) :
    Option CodeUnit :=
  (functionValue? lang source b.value).map fun body => { anchor, body, name := b.name }

theorem ofDeclarator?_eq (t : SyntaxTree) :
    ofDeclarator? lang source t = (declared? source t).bind (·.unit? lang source t) := by
  simp only [ofDeclarator?, declared?, Binding.unit?]
  cases t.child? .name with
  | none => rfl
  | some name =>
    by_cases identifier : name.kind = "identifier"
    · cases t.child? .value with
      | none => simp
      | some value => cases found : functionValue? lang source value <;> simp [identifier, found]
    · simp [identifier]

theorem ofPair?_eq (t : SyntaxTree) :
    ofPair? lang source t = (pairBinding? source t).bind (·.unit? lang source t) := by
  simp only [ofPair?, pairBinding?, Binding.unit?]
  cases t.child? .value with
  | none => rfl
  | some value =>
    cases t.fieldText? source .key <;>
      cases found : functionValue? lang source value <;> simp [found]

theorem ofAssignment?_eq (t : SyntaxTree) :
    ofAssignment? lang source t = (assigned? source t).bind (·.unit? lang source t) := by
  simp only [ofAssignment?, assigned?, Binding.unit?]
  cases t.child? .right with
  | none => rfl
  | some value =>
    cases t.child? .left <;> cases found : functionValue? lang source value <;> simp [found]

theorem ofClassField?_eq (t : SyntaxTree) :
    ofClassField? lang source t = (classField? source t).bind (·.unit? lang source t) := by
  simp only [ofClassField?, classField?, Binding.unit?]
  cases t.child? .value with
  | none => rfl
  | some value => cases found : functionValue? lang source value <;> simp [found]

theorem ofDeclaration?_eq (t : SyntaxTree) :
    ofDeclaration? lang source t = (solelyDeclared? source t).bind (·.unit? lang source t) := by
  rw [ofDeclaration?, solelyDeclared?]
  cases t.namedChildren.filter (·.kind = "variable_declarator") with
  | nil => rfl
  | cons first rest =>
    cases rest with
    | nil =>
      simp only [ofDeclarator?_eq]
      cases declared? source first <;> simp [Binding.unit?, Function.comp_def]
    | cons second rest => rfl

/-- The nodes that bind are units if what they bind stands for a function. -/
theorem ofBinding?_eq (t : SyntaxTree) : ofBinding? lang source t =
    if t.kind ∈ ["class_declaration", "class"] then
      if extendsComponent source t then
        some { anchor := t, body := t, name := t.fieldText? source .name, isClass := true }
      else none
    else (binding? source t).bind (·.unit? lang source t) := by
  rw [ofBinding?]
  split
  case h_1 kind => simp [kind, binding?, ofDeclaration?_eq]
  case h_2 kind => simp [kind, binding?, ofDeclaration?_eq]
  case h_3 kind => simp [kind, binding?, ofDeclarator?_eq]
  case h_4 kind => simp [kind, binding?, ofPair?_eq]
  case h_5 kind => simp [kind, binding?, ofAssignment?_eq]
  case h_6 kind => simp [kind, binding?, ofClassField?_eq]
  case h_7 kind => simp [kind, binding?, ofClassField?_eq]
  case h_8 kind => simp [kind]
  case h_9 kind => simp [kind]
  case h_10 _ _ _ _ _ _ _ _ no_declaration no_class =>
    rw [if_neg (by simpa using ⟨no_declaration, no_class⟩), binding?]
    split <;> simp_all

/-- The kinds of the nodes that bind. -/
def bindingKinds : List String :=
  ["lexical_declaration", "variable_declaration", "variable_declarator", "pair",
    "assignment_expression", "public_field_definition", "field_definition"]

theorem kind_of_binding? {b : Binding} (bound : binding? source t = some b) :
    t.kind ∈ bindingKinds := by
  rw [binding?] at bound
  split at bound
  case h_8 => cases bound
  all_goals simp [bindingKinds, *]

/-- A node that binds is matched by what it binds alone. -/
theorem ofNode?_of_binding? (roles : lang.hasRoles) {b : Binding}
    (bound : binding? source t = some b) : ofNode? lang source t = b.unit? lang source t := by
  have others : ∀ kind ∈ bindingKinds, kind ∉ lang.declarations ∧ kind ∉ lang.functionValues ∧
      kind ∉ ["class_declaration", "class"] := by
    cases lang <;> decide
  obtain ⟨no_declaration, no_function, no_class⟩ := others _ (kind_of_binding? bound)
  simp only [ofNode?]
  rw [if_neg no_declaration, if_neg no_function, if_pos roles, ofBinding?_eq, if_neg no_class,
    bound, Option.bind_some]
  cases b.unit? lang source t <;> rfl

end Bindings

end CodeUnit

end Lookalike
