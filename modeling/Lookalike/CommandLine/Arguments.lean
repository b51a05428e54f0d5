import Lookalike.Code.Chunk
import Lookalike.Number.Written

/-!
# Arguments

The commands and their arguments. Options start with a hyphen and may stand before or after the
other arguments; two hyphens end them. An option takes its value from behind an equals sign or from
the next argument, which may not look like an option itself.
-/

namespace Lookalike

inductive Command where
  | index (path : String) (force : Bool) (model : Option String) (exclude : List String)
  | dupes (path : String) (threshold : Option Float32) (minGroupSize : Option Nat)
    (kind : Option Kind)
  | search (query path : String) (top : Option Nat) (threshold : Option Float32)
  | similar (path place : String) (top : Option Nat) (threshold : Option Float32)
  | stats (path : String)
  | clear (path : String)

structure Invocation where
  config : Option String
  verbose : Bool
  /-- The answer is to be written as a JSON document. -/
  json : Bool
  command : Command

/-- Why there is nothing to carry out. -/
inductive Stop where
  | help | version | invalid
  deriving DecidableEq, Repr

namespace Arguments

inductive Arity where
  | none | one | many
  deriving DecidableEq, Repr

structure Parameter where
  long : String
  short : Option Char := none
  arity : Arity
  /-- Whether a value may be given. -/
  accepts : String → Bool := fun _ => true

/-- What a command takes: options, and how to check each of its other arguments in order. -/
structure Grammar where
  parameters : List Parameter
  positionals : List (String → Bool) := []
  /-- Other names that may stand in front and end the reading, such as those of commands. -/
  words : List String := []
  hasVersion : Bool := false

/-- What was found, in order: options with their values, and other arguments. -/
structure Found where
  options : List (String × List String) := []
  positionals : List String := []
  deriving Repr

/-- The state of the reading: what was found, and an option that may still take values. -/
structure State where
  found : Found := {}
  pending : Option (Parameter × List String) := none

namespace State

/-- Records an option. Only options with any number of values may be repeated. -/
def record (s : State) (p : Parameter) (values : List String) : Except Stop State :=
  let repeated := s.found.options.any (·.1 = p.long)
  if (repeated && p.arity ≠ .many) || !values.all p.accepts then .error .invalid
  else .ok { found := { s.found with options := s.found.options ++ [(p.long, values)] } }

/-- Closes an option that waits for values; it has to have one. -/
def settle (s : State) : Except Stop State :=
  match s.pending with
  | none => .ok s
  | some (_, []) => .error .invalid
  | some (p, values) => record { s with pending := none } p values

/-- Opens an option, with a value if one is attached to it. -/
def openOption (s : State) (p : Parameter) (attached : Option String) : Except Stop State := do
  let s ← s.settle
  match p.arity, attached with
  | .none, none => s.record p []
  | .none, some _ => .error .invalid
  | _, some value => s.record p [value]
  | _, none => return { s with pending := some (p, []) }

def addPositional (g : Grammar) (s : State) (arg : String) : Except Stop State := do
  let s ← s.settle
  match g.positionals[s.found.positionals.length]? with
  | some accepts =>
    if accepts arg then
      return { s with found := { s.found with positionals := s.found.positionals ++ [arg] } }
    else throw .invalid
  | none => throw .invalid

/-- Gives a plain argument to the option that waits for values, if there is one. -/
def addPlain (g : Grammar) (s : State) (arg : String) : Except Stop State :=
  match s.pending with
  | some (p, values) =>
    if p.arity = .many then .ok { s with pending := some (p, values ++ [arg]) }
    else record { s with pending := none } p (values ++ [arg])
  | none => s.addPositional g arg

/-- An option by its long name, with what stands behind an equals sign. -/
def addLong (g : Grammar) (s : State) (body : List Char) : Except Stop State :=
  let name := String.ofList (body.takeWhile (· ≠ '='))
  let attached := (body.dropWhile (· ≠ '=')).tail?.map String.ofList
  match g.parameters.find? (·.long = name) with
  | some p => s.openOption p attached
  | none => do
    let _ ← s.settle
    if attached.isSome then throw .invalid
    else if name = "help" then throw .help
    else if name = "version" && g.hasVersion then throw .version
    else throw .invalid

/-- Options by their short names in one argument. The first that takes a value takes the rest, with
or without an equals sign in between. -/
def addShorts (g : Grammar) (s : State) : List Char → Except Stop State
  | [] => .ok s
  | c :: rest =>
    match g.parameters.find? (·.short = some c) with
    | some p =>
      if p.arity = .none then do
        let s ← s.openOption p none
        s.addShorts g rest
      else
        let attached := if rest.head? = some '=' then rest.drop 1 else rest
        s.openOption p (if rest.isEmpty then none else some (String.ofList attached))
    | none => do
      let _ ← s.settle
      if c = 'h' then throw .help
      else if c = 'V' && g.hasVersion then throw .version
      else throw .invalid

end State

/-- Reads the arguments up to a word that ends the reading; gives that word and what follows it. -/
def scan (g : Grammar) (s : State) : List String → Except Stop (Found × List String)
  | [] => s.settle.map fun s => (s.found, [])
  | arg :: rest =>
    if s.pending.isNone && arg ∈ g.words then .ok (s.found, arg :: rest)
    else
      match arg.toList with
      | ['-', '-'] => do
        let s ← s.settle
        let s ← rest.foldlM (State.addPositional g) s
        return (s.found, [])
      | '-' :: '-' :: body => do
        let s ← s.addLong g body
        scan g s rest
      | '-' :: c :: body => do
        let s ← s.addShorts g (c :: body)
        scan g s rest
      | _ => do
        let s ← s.addPlain g arg
        scan g s rest

section Commands

/-- A path is never empty. -/
def isPath (value : String) : Bool := !value.isEmpty

def single : Parameter :=
  { long := "threshold", arity := .one, accepts := fun v => (Number.readSingle? v).isSome }

def isLong (value : String) : Bool := (Number.readNatural? Number.longBound value).isSome

def top : Parameter := { long := "top", arity := .one, accepts := isLong }

def json : Parameter := { long := "json", arity := .none }

/-- Options that every command takes too. -/
def shared : List Parameter :=
  [{ long := "config", short := some 'c', arity := .one, accepts := isPath },
    { long := "verbose", short := some 'v', arity := .none }]

def commandNames : List String :=
  ["index", "dupes", "search", "similar", "stats", "clear"]

def programGrammar : Grammar :=
  { parameters := shared, words := "help" :: commandNames, hasVersion := true }

def grammarOf : String → Grammar
  | "index" =>
    { parameters := shared ++ [{ long := "force", arity := .none },
        { long := "model", arity := .one }, { long := "exclude", arity := .many }, json]
      positionals := [isPath] }
  | "dupes" =>
    { parameters := shared ++ [single,
        { long := "min-group-size", arity := .one, accepts := isLong },
        { long := "kind", arity := .one, accepts := fun v => (Kind.parse? v).isSome }, json]
      positionals := [isPath] }
  | "search" =>
    { parameters := shared ++
        [{ long := "path", arity := .one, accepts := isPath }, top, single, json]
      positionals := [fun _ => true] }
  | "similar" =>
    { parameters := shared ++ [top, single, json], positionals := [isPath, fun _ => true] }
  | "stats" => { parameters := shared ++ [json], positionals := [isPath] }
  | _ => { parameters := shared, positionals := [isPath] }

namespace Found

def has (f : Found) (name : String) : Bool := f.options.any (·.1 = name)

def values (f : Found) (name : String) : List String :=
  (f.options.filter (·.1 = name)).flatMap (·.2)

def value? (f : Found) (name : String) : Option String := (f.values name).head?

def single? (f : Found) (name : String) : Option Float32 :=
  (f.value? name).bind Number.readSingle?

def long? (f : Found) (name : String) : Option Nat :=
  (f.value? name).bind (Number.readNatural? Number.longBound)

/-- The command of a name; none if one of its arguments is missing. -/
def command? (f : Found) (name : String) : Option Command :=
  match name, f.positionals with
  | "index", [path] =>
    some (.index path (f.has "force") (f.value? "model") (f.values "exclude"))
  | "dupes", [path] =>
    some (.dupes path (f.single? "threshold") (f.long? "min-group-size")
      ((f.value? "kind").bind Kind.parse?))
  | "search", [query] =>
    some (.search query ((f.value? "path").getD ".") (f.long? "top") (f.single? "threshold"))
  | "similar", [path, place] => some (.similar path place (f.long? "top") (f.single? "threshold"))
  | "stats", [path] => some (.stats path)
  | "clear", [path] => some (.clear path)
  | _, _ => none

end Found

/-- Asking for help about a command, or about help, is no fault; about anything else it is. -/
def helpAbout : List String → Stop
  | [] => .help
  | [name] => if name = "help" || name ∈ commandNames then .help else .invalid
  | _ => .invalid

end Commands

end Arguments

open Arguments (scan helpAbout grammarOf)

/-- Reads the arguments of the program. An option for all commands that stands both before and
after the command has the value that stands after it. -/
def Invocation.read (args : List String) : Except Stop Invocation := do
  let (front, rest) ← scan Arguments.programGrammar {} args
  match rest with
  | [] => throw .invalid
  | "help" :: rest => throw (helpAbout rest)
  | name :: rest =>
    let (found, _) ← scan (grammarOf name) {} rest
    match found.command? name with
    | some command =>
      return {
        config := (found.value? "config").or (front.value? "config")
        verbose := found.has "verbose" || front.has "verbose"
        json := found.has "json"
        command }
    | none => throw .invalid

end Lookalike
