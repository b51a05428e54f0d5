/-!
# Glob patterns

Patterns over paths, as in ignore files. A star and a question mark stay within one component, two
stars as a whole component stand for any number of components, classes are ranges in brackets, and
braces hold alternatives. Paths are matched byte by byte, so a question mark stands for one byte.
-/

namespace Lookalike.Glob

inductive Token where
  | byte (b : UInt8)
  /-- Any byte but a slash. -/
  | any
  /-- Any bytes but slashes. -/
  | star
  /-- Nothing, a slash, or folders with a slash at the end. -/
  | folders
  /-- A slash and anything after it. -/
  | below
  /-- A slash, or folders between two slashes. -/
  | between
  | oneOf (negated : Bool) (ranges : List (UInt8 × UInt8))
  deriving DecidableEq, Repr

def slash : UInt8 := 47

def utf8 (c : Char) : List UInt8 := String.utf8EncodeChar c

/-- What is left of a text after each of its beginnings without a slash. -/
def restsWithinName : List UInt8 → List (List UInt8)
  | [] => [[]]
  | b :: rest => (b :: rest) :: (if b = slash then [] else restsWithinName rest)

/-- What is left of a text after each of its slashes. -/
def restsAfterSlash : List UInt8 → List (List UInt8)
  | [] => []
  | b :: rest => if b = slash then rest :: restsAfterSlash rest else restsAfterSlash rest

def allRests : List UInt8 → List (List UInt8)
  | [] => [[]]
  | b :: rest => (b :: rest) :: allRests rest

def inRanges (ranges : List (UInt8 × UInt8)) (b : UInt8) : Bool :=
  ranges.any fun (low, high) => low ≤ b && b ≤ high

/-- What may be left of a text after a token. -/
def Token.rests (t : Token) (text : List UInt8) : List (List UInt8) :=
  match t, text with
  | .byte b, c :: rest => if b = c then [rest] else []
  | .any, c :: rest => if c = slash then [] else [rest]
  | .oneOf negated ranges, c :: rest => if inRanges ranges c = negated then [] else [rest]
  | .byte _, [] | .any, [] | .oneOf _ _, [] => []
  | .star, text => restsWithinName text
  | .folders, text => text :: restsAfterSlash text
  | .below, c :: rest => if c = slash then allRests rest else []
  | .between, c :: rest => if c = slash then rest :: restsAfterSlash rest else []
  | .below, [] | .between, [] => []

/-- Whether a sequence of tokens covers a text. -/
def covers : List Token → List UInt8 → Bool
  | [], text => text.isEmpty
  | t :: ts, text => (t.rests text).any (covers ts)

section Parsing

/-- One alternative while it is read: whether anything was read, and the sequences of tokens that
it stands for, backwards. -/
structure Branch where
  started : Bool := false
  forms : List (List Token) := [[]]

def Branch.add (b : Branch) (ts : List Token) : Branch :=
  { started := true, forms := b.forms.map (ts.reverse ++ ·) }

/-- Exchanges the last token of each form. -/
def Branch.exchange (b : Branch) (change : Token → Token) : Branch :=
  { b with
    forms := b.forms.map fun form =>
      match form with
      | [] => []
      | t :: ts => change t :: ts }

/-- The alternatives of a pair of braces, empty ones left out. -/
def Branch.addAlternatives (b : Branch) (alternatives : List Branch) : Branch :=
  let forms := (alternatives.filter fun a => a.forms.any (!·.isEmpty)).flatMap (·.forms)
  if forms.isEmpty then { b with started := true }
  else { started := true, forms := b.forms.flatMap fun form => forms.map (· ++ form) }

/-- The alternative that is being read, those before it in the same braces, and what stands around
the braces, innermost first. -/
structure State where
  current : Branch := {}
  before : List Branch := []
  around : List (Branch × List Branch) := []
  /-- A bracket was not closed, so that brackets are plain characters from there on. -/
  plainBrackets : Bool := false

def State.inBraces (s : State) : Bool := !s.around.isEmpty

def State.add (s : State) (ts : List Token) : State := { s with current := s.current.add ts }

/-- The bytes of a character that may stand at the two ends of a range: the range holds between
their neighbouring bytes. -/
def rangeBytes (low high : Char) : List (UInt8 × UInt8) :=
  if low = high then (utf8 low).map fun b => (b, b)
  else
    let first := utf8 low
    let last := utf8 high
    (first.dropLast.map fun b => (b, b)) ++
      [(first.getLast?.getD 0, last.head?.getD 0)] ++ (last.drop 1).map fun b => (b, b)

inductive ClassResult where
  | closed (ranges : List (Char × Char)) (rest : List Char)
  | unclosed
  | invalid

/-- Reads a class up to its closing bracket. A bracket or hyphen that comes first stands for itself,
and so does a hyphen that comes last; ranges are kept backwards. -/
def classRanges (ranges : List (Char × Char)) (first inRange : Bool) : List Char → ClassResult
  | [] => .unclosed
  | c :: rest =>
    let extend : ClassResult :=
      match ranges with
      | (low, _) :: others =>
        if c < low then .invalid else classRanges ((low, c) :: others) false false rest
      | [] => .invalid
    if c = ']' then
      if first then classRanges [(']', ']')] false false rest
      else .closed (if inRange then ('-', '-') :: ranges else ranges) rest
    else if c = '-' then
      if first then classRanges [('-', '-')] false false rest
      else if inRange then extend
      else classRanges ranges false true rest
    else if inRange then extend
    else classRanges ((c, c) :: ranges) false false rest

def isSlash (c : Option Char) : Bool := c = some '/'

/-- Two stars after the character before them: the tokens they add, and what is left to read. None
if they are no component of their own. -/
def State.twoStars (s : State) (previous : Option Char) (rest : List Char) : State × List Char :=
  let plain := (s.add [.star, .star], rest)
  if !s.current.started then
    match rest with
    | [] => (s.add [.folders], [])
    | '/' :: rest => (s.add [.folders], rest)
    | _ => plain
  else if !isSlash previous && !(s.inBraces && (previous = some ',' || previous = some '\x7b')) then
    plain
  else
    let change (suffix : Bool) (t : Token) : Token :=
      if t = .folders ∨ t = .below then t else if suffix then .below else .between
    let exchanged (suffix : Bool) := { s with current := s.current.exchange (change suffix) }
    match rest with
    | [] => (exchanged true, [])
    | '/' :: rest => (exchanged false, rest)
    | c :: _ =>
      if s.inBraces && (c = ',' || c = '\x7d') then (exchanged true, rest) else plain

/-- Reads a pattern; none if it is malformed. The first argument bounds the steps. -/
def parseWithin (keepUnclosed : Bool) : Nat → State → Option Char → List Char → Option State
  | _, s, _, [] => if s.inBraces then none else some s
  | 0, _, _, _ => none
  | n + 1, s, previous, c :: rest =>
    let go (s : State) := parseWithin keepUnclosed n s (some c) rest
    if c = '?' then go (s.add [.any])
    else if c = '*' then
      match rest with
      | '*' :: rest =>
        let (s, left) := s.twoStars previous rest
        let last := if left.length < rest.length then '/' else '*'
        parseWithin keepUnclosed n s (some last) left
      | _ => go (s.add [.star])
    else if c = '[' && !s.plainBrackets then
      let negated := rest.head? = some '!' || rest.head? = some '^'
      match classRanges [] true false (if negated then rest.drop 1 else rest) with
      | .closed ranges rest =>
        let bytes := ranges.reverse.flatMap fun (low, high) => rangeBytes low high
        parseWithin keepUnclosed n (s.add [.oneOf negated bytes]) (some ']') rest
      | .unclosed =>
        if keepUnclosed then go { s.add [.byte 91] with plainBrackets := true } else none
      | .invalid => none
    else if c = '\x7b' then
      go { s with current := {}, before := [], around := (s.current, s.before) :: s.around }
    else if c = '\x7d' then
      match s.around with
      | [] => none
      | (outer, before) :: around =>
        go { s with
          current := outer.addAlternatives (s.before ++ [s.current]), before, around }
    else if c = ',' && s.inBraces then
      go { s with current := {}, before := s.before ++ [s.current] }
    else if c = '\\' then
      match rest with
      | [] => none
      | e :: rest => parseWithin keepUnclosed n (s.add ((utf8 e).map .byte)) (some e) rest
    else go (s.add ((utf8 c).map .byte))

end Parsing

end Glob

/-- A pattern as the sequences of tokens that it stands for. -/
structure Glob where
  forms : List (List Glob.Token)

namespace Glob

/-- Reads a pattern. A bracket that is not closed is a plain character if `keepUnclosed` says so. -/
def parse? (keepUnclosed : Bool) (pattern : List Char) : Option Glob :=
  (parseWithin keepUnclosed pattern.length {} none pattern).map fun s =>
    ⟨s.current.forms.map List.reverse⟩

/-- Whether a path matches. The pattern of two stars alone matches everything. -/
def isMatch (g : Glob) (path : String) : Bool :=
  let bytes := path.toUTF8.toList
  g.forms.any fun form => form = [.folders] || covers form bytes

end Glob

end Lookalike
