/-!
# Languages

The source languages that can be chunked, and the node kinds of their grammars that matter: the
declarations that are units on their own, the expressions whose value is a function, and the
containers whose name becomes part of the scope of what they hold.
-/

namespace Lookalike

inductive Language where
  | javascript | typescript | tsx | python | rust | go
  deriving DecidableEq, Repr

namespace Language

def all : List Language := [javascript, typescript, tsx, python, rust, go]

def id : Language → String
  | javascript => "javascript"
  | typescript => "typescript"
  | tsx => "tsx"
  | python => "python"
  | rust => "rust"
  | go => "go"

def ofId? (id : String) : Option Language := all.find? (·.id = id)

theorem ofId?_id (lang : Language) : ofId? lang.id = some lang := by
  cases lang <;> decide

def ofExtension? : String → Option Language
  | "js" | "jsx" | "mjs" | "cjs" => some javascript
  | "ts" | "mts" | "cts" => some typescript
  | "tsx" => some tsx
  | "py" | "pyi" => some python
  | "rs" => some rust
  | "go" => some go
  | _ => none

/-- Whether units can be components and hooks of a user interface. -/
def hasRoles : Language → Bool
  | javascript | typescript | tsx => true
  | python | rust | go => false

/-- Kinds of declarations that are units on their own. -/
def declarations : Language → List String
  | javascript | typescript | tsx =>
    ["function_declaration", "generator_function_declaration", "method_definition"]
  | python => ["function_definition"]
  | rust => ["function_item"]
  | go => ["function_declaration", "method_declaration"]

/-- Kinds of expressions whose value is a function. Such an expression is a unit under the name it
is bound to, or without a name where it is bound to none. -/
def functionValues : Language → List String
  | javascript | typescript | tsx =>
    ["arrow_function", "function_expression", "function", "generator_function"]
  | go => ["func_literal"]
  | python | rust => []

/-- Kinds of containers that name a scope. -/
def scopes : Language → List String
  | javascript | typescript | tsx =>
    ["class_declaration", "abstract_class_declaration", "class", "internal_module", "module"]
  | python => ["class_definition"]
  | rust => ["impl_item", "trait_item", "mod_item"]
  | go => []

end Language

end Lookalike
