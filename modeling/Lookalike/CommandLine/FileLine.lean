import Lookalike.Number.Written

/-!
# Places in files

A line of a file, written as the path, a colon and the number of the line. Paths may hold colons, so
the last one counts.
-/

namespace Lookalike

structure FileLine where
  file : String
  line : Nat
  deriving DecidableEq, Repr

namespace FileLine

inductive Fault where
  | noColon
  | badLine (cause : Number.NaturalFault)
  /-- There is no file, or no line has the number. -/
  | nowhere
  deriving DecidableEq, Repr

def Fault.message (text : String) : Fault → String
  | noColon => s!"expected FILE:LINE, got {text}"
  | badLine _ => s!"invalid line number in {text}"
  | nowhere => s!"expected FILE:LINE with a 1-based line, got {text}"

/-- What lies behind a fault, if that is a fault of its own. -/
def Fault.causes : Fault → List String
  | badLine cause => [cause.message]
  | _ => []

/-- Splits a text at its last colon. -/
def splitLast? (text : List Char) : Option (List Char × List Char) :=
  let after := text.reverse.takeWhile (· ≠ ':')
  match text.reverse.drop after.length with
  | [] => none
  | _ :: before => some (before.reverse, after.reverse)

def read (text : String) : Except Fault FileLine :=
  match splitLast? text.toList with
  | none => .error .noColon
  | some (file, digits) =>
    match Number.readNatural Number.longBound (String.ofList digits) with
    | .error cause => .error (.badLine cause)
    | .ok line =>
      if file.isEmpty || line = 0 then .error .nowhere else .ok ⟨String.ofList file, line⟩

end FileLine

end Lookalike
