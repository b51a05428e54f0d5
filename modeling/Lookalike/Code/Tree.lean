/-!
# Syntax trees

A parsed source: nodes with a kind, a byte range and, where the grammar names the place of a node
below its parent, a field. Nodes that stand for a token of fixed spelling are not named.
-/

namespace Lookalike

/-- The places below a parent that units and their facts are read from. -/
inductive Field where
  | name | type | value | key | right | left | property | function | arguments | parameters
  | parameter | pattern
  deriving DecidableEq, Repr

inductive SyntaxTree where
  | node (kind : String) (named : Bool) (field : Option Field) (start stop : Nat)
    (children : List SyntaxTree)
  deriving Repr

namespace SyntaxTree

def kind : SyntaxTree → String
  | node kind _ _ _ _ _ => kind

def isNamed : SyntaxTree → Bool
  | node _ named _ _ _ _ => named

def field? : SyntaxTree → Option Field
  | node _ _ field _ _ _ => field

/-- Offset of the node's first byte. -/
def start : SyntaxTree → Nat
  | node _ _ _ start _ _ => start

/-- Offset of the first byte after the node. -/
def stop : SyntaxTree → Nat
  | node _ _ _ _ stop _ => stop

def children : SyntaxTree → List SyntaxTree
  | node _ _ _ _ _ children => children

def namedChildren (t : SyntaxTree) : List SyntaxTree := t.children.filter isNamed

/-- The child at a field of its parent. -/
def child? (t : SyntaxTree) (field : Field) : Option SyntaxTree :=
  t.children.find? (·.field? = some field)

/-- The text of the node within the source that was parsed. -/
def text (source : String) (t : SyntaxTree) : String :=
  String.Pos.Raw.extract source ⟨t.start⟩ ⟨t.stop⟩

def fieldText? (source : String) (t : SyntaxTree) (field : Field) : Option String :=
  (t.child? field).map (text source)

mutual

/-- Whether the node or a named node below it satisfies a test. -/
def anyNamed (test : SyntaxTree → Bool) : SyntaxTree → Bool
  | t@(node _ _ _ _ _ children) => test t || anyNamedIn test children

def anyNamedIn (test : SyntaxTree → Bool) : List SyntaxTree → Bool
  | [] => false
  | t :: rest => (t.isNamed && anyNamed test t) || anyNamedIn test rest

end

/-- A node without its children, and its depth below the root. -/
structure Outline where
  depth : Nat
  kind : String
  named : Bool
  field : Option Field
  start : Nat
  stop : Nat

/-- Places a node in front of the trees that follow it: those directly below it, which come first,
become its children. -/
def Outline.place (o : Outline) (following : List (Nat × SyntaxTree)) : List (Nat × SyntaxTree) :=
  let below := following.takeWhile (o.depth < ·.1)
  let after := following.dropWhile (o.depth < ·.1)
  (o.depth, node o.kind o.named o.field o.start o.stop (below.map (·.2))) :: after

/-- The tree whose nodes, each before what is below it, are the given ones. -/
def ofOutline? (nodes : List Outline) : Option SyntaxTree :=
  (nodes.foldr Outline.place []).head?.map (·.2)

end SyntaxTree

end Lookalike
