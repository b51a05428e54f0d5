import Lookalike.Proofs.Code.Comments
import Lookalike.Proofs.Code.Outermost

/-!
# Units of a tree without its comments

The walk looks at the same nodes without the comments, and finds the same units at them, unless a
comment hides a function from the name that it is bound to. Of what is noticed about a unit, only
the properties depend on comments: they are read from the first of the parameters, which may be one.
-/

namespace Lookalike

namespace CodeUnit

open SyntaxTree

section Bindings

variable {lang : Language} {source : String} {t : SyntaxTree}

/-- The binding without the comments below its value. -/
def Binding.withoutComments (b : Binding) : Binding := { b with value := b.value.withoutComments }

theorem declared?_withoutComments (t : SyntaxTree) :
    declared? source t.withoutComments = (declared? source t).map Binding.withoutComments := by
  simp only [declared?, child?_withoutComments]
  cases t.child? .name with
  | none => rfl
  | some name =>
    by_cases identifier : name.kind = "identifier"
    · cases t.child? .value <;> simp [identifier, Binding.withoutComments]
    · simp [identifier]

theorem pairBinding?_withoutComments (t : SyntaxTree) :
    pairBinding? source t.withoutComments =
      (pairBinding? source t).map Binding.withoutComments := by
  simp only [pairBinding?, child?_withoutComments, fieldText?_withoutComments]
  cases t.child? .value with
  | none => rfl
  | some value => cases t.fieldText? source .key <;> simp [Binding.withoutComments]

theorem assigned?_withoutComments (t : SyntaxTree) :
    assigned? source t.withoutComments = (assigned? source t).map Binding.withoutComments := by
  simp only [assigned?, child?_withoutComments]
  cases t.child? .right with
  | none => rfl
  | some value => cases t.child? .left <;> simp [Binding.withoutComments]

theorem classField?_withoutComments (t : SyntaxTree) :
    classField? source t.withoutComments = (classField? source t).map Binding.withoutComments := by
  simp only [classField?, child?_withoutComments, fieldText?_withoutComments]
  cases t.child? .value <;> simp [Binding.withoutComments]

theorem solelyDeclared?_withoutComments (t : SyntaxTree) :
    solelyDeclared? source t.withoutComments =
      (solelyDeclared? source t).map Binding.withoutComments := by
  rw [solelyDeclared?, solelyDeclared?, namedChildren_withoutComments,
    filter_withoutCommentsIn (overlooks_kind (by decide))]
  cases t.namedChildren.filter (·.kind = "variable_declarator") with
  | nil => rfl
  | cons first rest =>
    cases rest with
    | nil => exact declared?_withoutComments first
    | cons second rest => rfl

theorem binding?_withoutComments (t : SyntaxTree) :
    binding? source t.withoutComments = (binding? source t).map Binding.withoutComments := by
  simp only [binding?, kind_withoutComments]
  split
  case h_1 | h_2 => exact solelyDeclared?_withoutComments t
  case h_3 => exact declared?_withoutComments t
  case h_4 => exact pairBinding?_withoutComments t
  case h_5 => exact assigned?_withoutComments t
  case h_6 | h_7 => exact classField?_withoutComments t
  case h_8 => rfl

theorem extendsComponent_withoutComments (t : SyntaxTree) :
    extendsComponent source t.withoutComments = extendsComponent source t := by
  rw [extendsComponent, extendsComponent, namedChildren_withoutComments,
    find?_withoutCommentsIn (overlooks_kind (by decide))]
  cases t.namedChildren.find? (·.kind = "class_heritage") <;> simp

end Bindings

/-- The unit of the tree without comments. -/
def withoutComments (u : CodeUnit) : CodeUnit :=
  { u with anchor := u.anchor.withoutComments, body := u.body.withoutComments }

/-- A comment hides a function from the name that the node binds it to. -/
def HidesUnit (lang : Language) (source : String) (t : SyntaxTree) : Prop :=
  ∃ b ∈ binding? source t, HidesFunction lang source b.value

instance (lang : Language) (source : String) (t : SyntaxTree) :
    Decidable (HidesUnit lang source t) :=
  inferInstanceAs (Decidable (∃ b ∈ binding? source t, HidesFunction lang source b.value))

section Matching

variable {lang : Language} {source : String} {t : SyntaxTree}

theorem unit?_withoutComments {b : Binding} (unhidden : ¬ HidesFunction lang source b.value) :
    b.withoutComments.unit? lang source t.withoutComments =
      (b.unit? lang source t).map withoutComments := by
  rw [Binding.unit?, Binding.unit?, Binding.withoutComments,
    functionValue?_of_not_hidesFunction unhidden]
  cases functionValue? lang source b.value <;> rfl

/-- The same unit is matched at a node without the comments below it, if no comment hides it. -/
theorem ofNode?_withoutComments (unhidden : ¬ HidesUnit lang source t) :
    ofNode? lang source t.withoutComments =
      (ofNode? lang source t).map withoutComments := by
  have bound : (binding? source t.withoutComments).bind (·.unit? lang source t.withoutComments) =
      ((binding? source t).bind (·.unit? lang source t)).map withoutComments := by
    rw [binding?_withoutComments]
    cases binding : binding? source t with
    | none => rfl
    | some b => exact unit?_withoutComments fun hides => unhidden ⟨b, binding, hides⟩
  have matched : ofBinding? lang source t.withoutComments =
      (ofBinding? lang source t).map withoutComments := by
    rw [ofBinding?_eq, ofBinding?_eq, kind_withoutComments, extendsComponent_withoutComments,
      fieldText?_withoutComments, bound]
    repeat' split
    all_goals rfl
  simp only [ofNode?, kind_withoutComments, fieldText?_withoutComments, matched]
  cases ofBinding? lang source t
  all_goals
    repeat' split
    all_goals rfl

/-- A node whose unit is hidden is no unit, and is one without the comments below it. -/
theorem ofNode?_of_hidesUnit (roles : lang.hasRoles) (hidden : HidesUnit lang source t) :
    ofNode? lang source t = none ∧ (ofNode? lang source t.withoutComments).isSome := by
  obtain ⟨b, bound, covered, found⟩ := hidden
  have bare : binding? source t.withoutComments = some b.withoutComments := by
    rw [binding?_withoutComments, Option.mem_def.mp bound, Option.map_some]
  rw [ofNode?_of_binding? roles bound, ofNode?_of_binding? roles bare, Binding.unit?,
    Binding.unit?, Option.isSome_map, functionValue?_of_covered covered, Option.map_none]
  exact ⟨rfl, found⟩

/-- A node keeps its unit, or stays without one, exactly if no comment hides one from it. -/
theorem ofNode?_withoutComments_iff (roles : lang.hasRoles) :
    ofNode? lang source t.withoutComments = (ofNode? lang source t).map withoutComments ↔
      ¬ HidesUnit lang source t := by
  constructor
  · intro same hidden
    obtain ⟨missed, found⟩ := ofNode?_of_hidesUnit roles hidden
    rw [same, missed] at found
    cases found
  · exact ofNode?_withoutComments

end Matching

section Walk

variable {lang : Language} {source : String} {scopes above : List String}
variable {t n : SyntaxTree} {ts : List SyntaxTree}

/-- The walk over a row of trees comes to a node: it is named, and so is all above it, and that is
no unit. -/
inductive Reached (lang : Language) (source : String) : List SyntaxTree → SyntaxTree → Prop
  | here {ts : List SyntaxTree} {t : SyntaxTree} (member : t ∈ ts) (named : t.isNamed) :
    Reached lang source ts t
  | inside {ts : List SyntaxTree} {t n : SyntaxTree} (member : t ∈ ts) (named : t.isNamed)
    (none_here : ofNode? lang source t = none) (deeper : Reached lang source t.children n) :
    Reached lang source ts n

theorem Reached.mem_nodesOf (reached : Reached lang source ts n) : n ∈ nodesOf ts := by
  induction reached with
  | here member => exact mem_nodesOf_of_mem member
  | inside member _ _ _ ih =>
    exact mem_nodesOf_iff.mpr ⟨_, member, nodes_eq _ ▸ List.mem_cons_of_mem _ ih⟩

theorem Reached.cons (reached : Reached lang source ts n) : Reached lang source (t :: ts) n := by
  cases reached with
  | here member named => exact .here (List.mem_cons_of_mem t member) named
  | inside member named none_here deeper =>
    exact .inside (List.mem_cons_of_mem t member) named none_here deeper

/-- The unit with its place, in the tree without comments. -/
def Placed.withoutComments (p : Placed) : Placed := { p with unit := p.unit.withoutComments }

theorem unitsFrom_of_loose (loose : t.isLooseComment) :
    unitsFrom lang source scopes above t = [] := by
  obtain ⟨named, start, stop, rfl⟩ := node_of_isLooseComment loose
  have none_here : ofNode? lang source (.node "comment" named none start stop []) = none := by
    cases lang <;> rfl
  rw [unitsFrom_of_none none_here, SyntaxTree.children, unitsBelow]

theorem scopeName_withoutComments (t : SyntaxTree) :
    scopeName source t.withoutComments = scopeName source t := by
  simp [scopeName]

/-- The walk finds the same units without the comments, if none that it comes to is hidden. -/
theorem unitsBelow_withoutComments
    (unhidden : ∀ t, Reached lang source ts t → ¬ HidesUnit lang source t) :
    unitsBelow lang source scopes above (withoutCommentsIn ts) =
      (unitsBelow lang source scopes above ts).map Placed.withoutComments := by
  induction ts using row_induction generalizing scopes above with
  | nil => simp [withoutCommentsIn, unitsBelow]
  | cons t rest below others =>
    have in_rest : unitsBelow lang source scopes above (withoutCommentsIn rest) =
        (unitsBelow lang source scopes above rest).map Placed.withoutComments :=
      others fun n reached => unhidden n reached.cons
    rw [withoutCommentsIn]
    split
    next loose =>
      rw [in_rest, unitsBelow, unitsFrom_of_loose loose, ite_self, List.nil_append]
    next =>
      rw [unitsBelow, unitsBelow, in_rest, List.map_append, isNamed_withoutComments]
      -- The rest is settled, and the walk goes below the first tree only if that is no unit.
      congr 1
      split
      next named =>
        have same := ofNode?_withoutComments (unhidden t (.here List.mem_cons_self named))
        cases matched : ofNode? lang source t with
        | some u =>
          rw [matched] at same
          rw [unitsFrom_of_some matched, unitsFrom_of_some same]
          rfl
        | none =>
          rw [matched] at same
          have deeper : ∀ n, Reached lang source t.children n → ¬ HidesUnit lang source n :=
            fun n reached => unhidden n (.inside List.mem_cons_self named matched reached)
          rw [unitsFrom_of_none matched, unitsFrom_of_none same, kind_withoutComments,
            children_withoutComments, scopesBelow, scopeName_withoutComments,
            kind_withoutComments, below deeper, scopesBelow]
      next => rfl

end Walk

section Facts

variable {lang : Language} {source : String} {limits : ChunkLimits} {path : String}
variable {p : Placed} {n : Nat}

def Parameters.withoutComments : Parameters → Parameters
  | .single t => .single t.withoutComments
  | .listed ts => .listed (withoutCommentsIn ts)

/-- The nodes of a list of parameters. -/
def Parameters.parts : Parameters → List SyntaxTree
  | .single _ => []
  | .listed ts => ts

theorem parameters_withoutComments (body : SyntaxTree) :
    parameters body.withoutComments = (parameters body).withoutComments := by
  have found : (body.withoutComments.child? .parameters <|>
        body.withoutComments.child? .parameter) =
      (body.child? .parameters <|> body.child? .parameter).map SyntaxTree.withoutComments := by
    rw [child?_withoutComments, child?_withoutComments]
    cases body.child? .parameters <;> rfl
  rw [parameters, parameters, found]
  cases body.child? .parameters <|> body.child? .parameter with
  | none => rfl
  | some t =>
    simp only [Option.map_some, kind_withoutComments, namedChildren_withoutComments]
    split
    next => rfl
    next => rfl

/-- The first of the parameters is a comment, and what stands first behind it takes properties out
of its argument. -/
def IsVeiled (source : String) (p : Placed) : Prop :=
  (parameters p.unit.body).parts.head?.any isLooseComment ∧
    ∃ first ∈ (parameters p.unit.body).parts.find? (!·.isLooseComment), propNames source first ≠ []

instance (source : String) (p : Placed) : Decidable (IsVeiled source p) :=
  inferInstanceAs (Decidable (_ ∧ ∃ first ∈ List.find? _ _, _))

theorem props_eq (roles : lang.hasRoles) (p : Placed) : (facts lang source p).props =
    ((parameters p.unit.body).parts.head?.map (propNames source)).getD [] := by
  rw [facts]
  cases parameters p.unit.body with
  | single t => rfl
  | listed ts => exact if_pos roles

/-- Whether the properties are the same without the comments. -/
theorem props_withoutComments_iff (roles : lang.hasRoles) :
    (facts lang source p.withoutComments).props = (facts lang source p).props ↔
      ¬ IsVeiled source p := by
  have bare : (parameters p.withoutComments.unit.body).parts =
      withoutCommentsIn (parameters p.unit.body).parts := by
    rw [Placed.withoutComments, CodeUnit.withoutComments, parameters_withoutComments]
    cases parameters p.unit.body <;> rfl
  rw [props_eq roles, props_eq roles, bare, head?_withoutCommentsIn, IsVeiled, Option.map_map]
  cases (parameters p.unit.body).parts with
  | nil => simp
  | cons first rest =>
    cases loose : first.isLooseComment with
    | false => simp [loose, propNames_withoutComments]
    | true =>
      -- The comment gives no properties; without it the first node behind it is read.
      simp only [List.head?_cons, Option.map_some, propNames_of_loose loose]
      cases (first :: rest).find? (!·.isLooseComment) with
      | none => simp
      | some other => simp [loose, propNames_withoutComments]

/-- Everything else that is noticed about a unit is. -/
theorem facts_withoutComments (roles : lang.hasRoles) (p : Placed) :
    facts lang source p.withoutComments =
      { facts lang source p with props := (facts lang source p.withoutComments).props } := by
  have bare : p.withoutComments.unit.body = p.unit.body.withoutComments := rfl
  have exported : (facts lang source p.withoutComments).exported =
      (facts lang source p).exported := by
    cases lang with
    | javascript | typescript | tsx => rfl
    | python | rust | go => cases roles
  have params : (facts lang source p.withoutComments).params = (facts lang source p).params := by
    rw [facts, facts, bare, parameters_withoutComments]
    cases parameters p.unit.body with
    | single t => simp [Parameters.withoutComments]
    | listed ts =>
      exact filterMap_withoutCommentsIn ts (fun _ => paramName?_of_loose) paramName?_withoutComments
  have hooks : (facts lang source p.withoutComments).hooks = (facts lang source p).hooks := by
    rw [facts, facts, bare, hookCalls_withoutComments]
  have is_async : (facts lang source p.withoutComments).isAsync =
      (facts lang source p).isAsync := by
    rw [facts, facts, bare, isAsync_withoutComments]
  generalize facts lang source p.withoutComments = noticed at *
  cases noticed
  simp only at params hooks is_async exported
  rw [params, hooks, is_async, exported]

end Facts

section Chunks

variable {lang : Language} {source : String} {limits : ChunkLimits} {path : String}
variable {root : SyntaxTree} {p : Placed} {n : Nat}

theorem role_withoutComments (u : CodeUnit) : role lang u.withoutComments = role lang u := by
  simp only [role, CodeUnit.withoutComments, holdsMarkup_withoutComments]
  rfl

theorem normalText_withoutComments (maxChars : Nat) (u : CodeUnit) :
    normalText source maxChars u.withoutComments = normalText source maxChars u := by
  simp only [normalText, textStart, CodeUnit.withoutComments, start_withoutComments,
    stop_withoutComments]

theorem span_withoutComments (u : CodeUnit) : span source u.withoutComments = span source u := by
  simp only [span, CodeUnit.withoutComments, start_withoutComments, stop_withoutComments]

/-- The chunk with other properties. -/
def withProps (props : List String) (c : Chunk) : Chunk :=
  { c with facts := { c.facts with props } }

/-- What is cut from the unit is the same but for the properties. -/
theorem chunk?_withoutComments (roles : lang.hasRoles) :
    chunk? lang limits path source p.withoutComments n =
      (chunk? lang limits path source p n).map
        (withProps (facts lang source p.withoutComments).props) := by
  have bare : p.withoutComments.unit = p.unit.withoutComments := rfl
  rw [chunk?, chunk?, bare, normalText_withoutComments]
  split
  next => rfl
  next =>
    rw [role_withoutComments, span_withoutComments, facts_withoutComments roles]
    rfl

theorem withOrdinals_withoutComments (earlier : List (String × String)) (ps : List Placed) :
    withOrdinals earlier (ps.map Placed.withoutComments) =
      (withOrdinals earlier ps).map fun (p, n) => (p.withoutComments, n) := by
  induction ps generalizing earlier with
  | nil => rfl
  | cons p ps ih =>
    rw [List.map_cons, withOrdinals, withOrdinals, ih]
    rfl

theorem chunksOf_withoutComments (roles : lang.hasRoles)
    (unhidden : ∀ t, Reached lang source root.children t → ¬ HidesUnit lang source t) :
    chunksOf lang limits path source root.withoutComments =
      (withOrdinals [] (units lang source root)).filterMap fun (p, n) =>
        (chunk? lang limits path source p n).map
          (withProps (facts lang source p.withoutComments).props) := by
  have bare : units lang source root.withoutComments =
      (units lang source root).map Placed.withoutComments := by
    rw [units, units, kind_withoutComments, children_withoutComments]
    exact unitsBelow_withoutComments unhidden
  rw [chunksOf, bare, withOrdinals_withoutComments, List.filterMap_map]
  exact List.filterMap_congr fun counted _ => chunk?_withoutComments roles

theorem map_withProps_iff {props : List String} :
    (chunk? lang limits path source p n).map (withProps props) =
        chunk? lang limits path source p n ↔
      (IsLarge limits source p → props = (facts lang source p).props) := by
  cases cut : chunk? lang limits path source p n with
  | none => simp [chunk?_eq_none_iff.mp cut]
  | some c =>
    have is_cut := isCut_of_chunk? cut
    rw [Option.map_some, Option.some.injEq, ← is_cut.facts]
    constructor
    · intro same _
      exact congrArg (fun c => c.facts.props) same
    · intro same
      rw [same is_cut.large]
      rfl

/-- Two readings of a list that pick the same of it give the same if they do so at every place. -/
theorem filterMap_eq_iff {α β : Type} {f g : α → Option β} {l : List α}
    (alike : ∀ x ∈ l, (f x).isSome = (g x).isSome) :
    l.filterMap f = l.filterMap g ↔ ∀ x ∈ l, f x = g x := by
  induction l with
  | nil => simp
  | cons x l ih =>
    have rest := ih fun y member => alike y (List.mem_cons_of_mem x member)
    have first := alike x List.mem_cons_self
    cases left : f x <;> cases right : g x <;> simp_all

/-- A node is the same unit without the comments unless one of them hides a function from its name.
Where this happens at no node that the walk comes to, the chunks of a file are the same without the
comments, up to the properties of components. These are the same too if and only if no comment veils
them in a unit that is large enough. -/
theorem comments_matter_in_front (lang : Language) (roles : lang.hasRoles) (limits : ChunkLimits)
    (path source : String) (root : SyntaxTree) :
    (∀ t, ofNode? lang source t.withoutComments = (ofNode? lang source t).map withoutComments ↔
      ¬ HidesUnit lang source t) ∧
    ((∀ t, Reached lang source root.children t → ¬ HidesUnit lang source t) →
      (chunksOf lang limits path source root.withoutComments).map (withProps []) =
        (chunksOf lang limits path source root).map (withProps []) ∧
      (chunksOf lang limits path source root.withoutComments =
          chunksOf lang limits path source root ↔
        ∀ p ∈ units lang source root, IsLarge limits source p → ¬ IsVeiled source p)) := by
  refine ⟨fun t => ofNode?_withoutComments_iff roles, fun unhidden => ?_⟩
  rw [chunksOf_withoutComments roles unhidden]
  constructor
  · rw [chunksOf, List.map_filterMap, List.map_filterMap]
    refine List.filterMap_congr fun counted _ => ?_
    rw [Option.map_map]
    rfl
  · rw [chunksOf, filterMap_eq_iff fun counted _ => Option.isSome_map]
    simp only [map_withProps_iff, props_withoutComments_iff roles]
    have counted := map_fst_withOrdinals [] (units lang source root)
    constructor
    · intro unveiled p member
      rw [← counted] at member
      obtain ⟨entry, among, rfl⟩ := List.mem_map.mp member
      exact unveiled entry among
    · intro unveiled entry among
      exact unveiled entry.1 (counted ▸ List.mem_map_of_mem among)

section Sample

/-- A comment behind a parameter, and one in front of it. -/
def behindSource : String := "const F = (\x7b a \x7d /* c */) => 1\n"

def inFrontSource : String := "const F = (/* c */ \x7b a \x7d) => 1\n"

def parametersTree (parameters : List SyntaxTree) : SyntaxTree :=
  .node "program" true none 0 31 [
    .node "lexical_declaration" true none 0 30 [
      .node "variable_declarator" true none 6 30 [
        .node "identifier" true (some .name) 6 7 [],
        .node "arrow_function" true (some .value) 10 30 [
          .node "formal_parameters" true (some .parameters) 10 25 parameters,
          .node "number" true none 29 30 []]]]]

def behindTree : SyntaxTree :=
  parametersTree [
    .node "object_pattern" true none 11 16 [
      .node "shorthand_property_identifier_pattern" true none 13 14 []],
    .node "comment" true none 17 24 []]

def inFrontTree : SyntaxTree :=
  parametersTree [
    .node "comment" true none 11 18 [],
    .node "object_pattern" true none 19 24 [
      .node "shorthand_property_identifier_pattern" true none 21 22 []]]

/-- A comment in front of the function that a transparent call hands through. -/
def memoSource : String := "const f = memo(/* c */ () => 1)\n"

def memoTree : SyntaxTree :=
  .node "program" true none 0 32 [
    .node "lexical_declaration" true none 0 31 [
      .node "variable_declarator" true none 6 31 [
        .node "identifier" true (some .name) 6 7 [],
        .node "call_expression" true (some .value) 10 31 [
          .node "identifier" true (some .function) 10 14 [],
          .node "arguments" true (some .arguments) 14 31 [
            .node "comment" true none 15 22 [],
            .node "arrow_function" true none 23 30 [
              .node "formal_parameters" true (some .parameters) 23 25 [],
              .node "number" true none 29 30 []]]]]]]

/-- A comment does not matter behind a parameter, but it does in front of the first one. Where a
comment hides a function, the function goes by no name. -/
theorem comments_matter_in_front_samples :
    chunksOf .javascript { minSize := 1 } "x.js" behindSource behindTree.withoutComments =
      chunksOf .javascript { minSize := 1 } "x.js" behindSource behindTree ∧
    chunksOf .javascript { minSize := 1 } "x.js" inFrontSource inFrontTree.withoutComments ≠
      chunksOf .javascript { minSize := 1 } "x.js" inFrontSource inFrontTree ∧
    (∃ t ∈ nodesOf memoTree.children, HidesUnit .javascript memoSource t) ∧
    (chunksOf .javascript { minSize := 1 } "x.js" memoSource memoTree.withoutComments).map
        (·.name) = [some "f"] ∧
    (chunksOf .javascript { minSize := 1 } "x.js" memoSource memoTree).map (·.name) = [none] := by
  have behind : ∀ t ∈ nodesOf behindTree.children, ¬ HidesUnit .javascript behindSource t := by
    decide +kernel
  have in_front : ∀ t ∈ nodesOf inFrontTree.children, ¬ HidesUnit .javascript inFrontSource t := by
    decide +kernel
  refine ⟨?_, ?_, by decide +kernel, by decide +kernel, by decide +kernel⟩
  · apply ((comments_matter_in_front .javascript rfl { minSize := 1 } "x.js" behindSource
      behindTree).2 fun t reached => behind t reached.mem_nodesOf).2.mpr
    decide +kernel
  · intro same
    have unveiled := ((comments_matter_in_front .javascript rfl { minSize := 1 } "x.js"
      inFrontSource inFrontTree).2 fun t reached => in_front t reached.mem_nodesOf).2.mp same
    revert unveiled
    decide +kernel

end Sample

end Chunks

end CodeUnit

end Lookalike
