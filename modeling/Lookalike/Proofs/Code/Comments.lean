import Lookalike.Code.Facts
import Lookalike.Proofs.Code.Bindings

/-!
# Trees without comments

A comment can stand between any two nodes. Most of what is read from a tree is found by a field or
by a kind, and so is the same without the comments. The first named node of a list is not:
parentheses and transparent calls hand on what stands first in them, be it a comment.
-/

namespace Lookalike

namespace SyntaxTree

/-- A comment that stands at no field and holds nothing. -/
def isLooseComment (t : SyntaxTree) : Bool :=
  t.kind = "comment" && t.field?.isNone && t.children.isEmpty

mutual

/-- The node without the loose comments below it. -/
def withoutComments : SyntaxTree → SyntaxTree
  | node kind named field start stop children =>
    node kind named field start stop (withoutCommentsIn children)

def withoutCommentsIn : List SyntaxTree → List SyntaxTree
  | [] => []
  | t :: rest =>
    if t.isLooseComment then withoutCommentsIn rest
    else withoutComments t :: withoutCommentsIn rest

end

section Reading

variable {t : SyntaxTree} {ts : List SyntaxTree} {source : String}

@[simp] theorem kind_withoutComments (t : SyntaxTree) : t.withoutComments.kind = t.kind := by
  cases t
  rfl

@[simp] theorem isNamed_withoutComments (t : SyntaxTree) :
    t.withoutComments.isNamed = t.isNamed := by
  cases t
  rfl

@[simp] theorem field?_withoutComments (t : SyntaxTree) : t.withoutComments.field? = t.field? := by
  cases t
  rfl

@[simp] theorem start_withoutComments (t : SyntaxTree) : t.withoutComments.start = t.start := by
  cases t
  rfl

@[simp] theorem stop_withoutComments (t : SyntaxTree) : t.withoutComments.stop = t.stop := by
  cases t
  rfl

@[simp] theorem children_withoutComments (t : SyntaxTree) :
    t.withoutComments.children = withoutCommentsIn t.children := by
  cases t
  rfl

@[simp] theorem text_withoutComments (t : SyntaxTree) :
    t.withoutComments.text source = t.text source := by
  simp [text]

theorem node_of_isLooseComment (loose : t.isLooseComment) :
    ∃ named start stop, t = .node "comment" named none start stop [] := by
  obtain ⟨kind, named, field, start, stop, children⟩ := t
  simp only [isLooseComment, Bool.and_eq_true, Option.isNone_iff_eq_none,
    List.isEmpty_iff] at loose
  obtain ⟨⟨is_comment, no_field⟩, no_children⟩ := loose
  cases of_decide_eq_true is_comment
  cases no_field
  cases no_children
  exact ⟨named, start, stop, rfl⟩

theorem withoutCommentsIn_eq : withoutCommentsIn ts =
    (ts.filter fun t => !t.isLooseComment).map withoutComments := by
  induction ts with
  | nil => rfl
  | cons t ts ih =>
    rw [withoutCommentsIn]
    split
    next loose => rw [ih, List.filter_cons_of_neg (by simpa using loose)]
    next kept => rw [ih, List.filter_cons_of_pos (by simpa using kept), List.map_cons]

theorem head?_withoutCommentsIn (ts : List SyntaxTree) : (withoutCommentsIn ts).head? =
    (ts.find? fun t => !t.isLooseComment).map withoutComments := by
  rw [withoutCommentsIn_eq, List.head?_map, List.head?_filter]

/-- A test picks no loose comment, and does not tell whether there are any in a node. -/
structure Overlooks (pick : SyntaxTree → Bool) : Prop where
  passes (t : SyntaxTree) (loose : t.isLooseComment) : pick t = false
  same (t : SyntaxTree) : pick t.withoutComments = pick t

theorem overlooks_field (field : Field) : Overlooks (·.field? = some field) where
  passes t loose := by
    obtain ⟨_, _, _, rfl⟩ := node_of_isLooseComment loose
    simp [field?]
  same t := by simp

theorem overlooks_kind {kind : String} (other : "comment" ≠ kind) : Overlooks (·.kind = kind) where
  passes t loose := by
    obtain ⟨_, _, _, rfl⟩ := node_of_isLooseComment loose
    exact decide_eq_false other
  same t := by simp

theorem filter_withoutCommentsIn {pick : SyntaxTree → Bool} (overlooks : Overlooks pick) :
    (withoutCommentsIn ts).filter pick = (ts.filter pick).map withoutComments := by
  rw [withoutCommentsIn_eq, List.filter_map, List.filter_filter]
  congr 1
  refine List.filter_congr fun t _ => ?_
  cases loose : t.isLooseComment with
  | false => simp [overlooks.same]
  | true => simp [overlooks.passes t loose]

theorem find?_withoutCommentsIn {pick : SyntaxTree → Bool} (overlooks : Overlooks pick) :
    (withoutCommentsIn ts).find? pick = (ts.find? pick).map withoutComments := by
  rw [← List.head?_filter, filter_withoutCommentsIn overlooks, List.head?_map, List.head?_filter]

@[simp] theorem child?_withoutComments (t : SyntaxTree) (field : Field) :
    t.withoutComments.child? field = (t.child? field).map withoutComments := by
  rw [child?, children_withoutComments, find?_withoutCommentsIn (overlooks_field field)]
  rfl

@[simp] theorem fieldText?_withoutComments (t : SyntaxTree) (field : Field) :
    t.withoutComments.fieldText? source field = t.fieldText? source field := by
  simp [fieldText?, Function.comp_def]

theorem namedChildren_withoutComments (t : SyntaxTree) :
    t.withoutComments.namedChildren = withoutCommentsIn t.namedChildren := by
  rw [namedChildren, namedChildren, children_withoutComments, withoutCommentsIn_eq,
    withoutCommentsIn_eq, List.filter_map, List.filter_filter, List.filter_filter]
  simp [Bool.and_comm]

/-- What is read along a row is the same without the comments, if they add nothing to it. -/
theorem read_withoutCommentsIn {β : Type} (read : List SyntaxTree → β)
    {step : SyntaxTree → β → β} (cons : ∀ t rest, read (t :: rest) = step t (read rest))
    (nothing : ∀ t b, t.isLooseComment → step t b = b)
    (same : ∀ t ∈ ts, step t.withoutComments = step t) :
    read (withoutCommentsIn ts) = read ts := by
  induction ts with
  | nil => rfl
  | cons t ts ih =>
    have rest := ih fun other member => same other (List.mem_cons_of_mem t member)
    rw [withoutCommentsIn, cons]
    split
    next loose => rw [rest, nothing t _ loose]
    next kept => rw [cons, rest, same t List.mem_cons_self]

/-- What the parts of a list give, if a comment gives nothing. -/
theorem filterMap_withoutCommentsIn {β : Type} {f : SyntaxTree → Option β} (ts : List SyntaxTree)
    (nothing : ∀ t, t.isLooseComment → f t = none) (same : ∀ t, f t.withoutComments = f t) :
    (withoutCommentsIn ts).filterMap f = ts.filterMap f := by
  have cons (t : SyntaxTree) (rest : List SyntaxTree) :
      (t :: rest).filterMap f = (f t).toList ++ rest.filterMap f := by
    rw [List.filterMap_cons]
    cases f t <;> rfl
  refine read_withoutCommentsIn _ cons (fun t b loose => ?_) fun t _ => ?_
  · rw [nothing t loose]
    rfl
  · rw [same]

theorem anyNamed_withoutComments {test : SyntaxTree → Bool} (overlooks : Overlooks test)
    (t : SyntaxTree) : t.withoutComments.anyNamed test = t.anyNamed test := by
  induction t using below_induction with | step t below =>
  have in_children : anyNamedIn test (withoutCommentsIn t.children) =
      anyNamedIn test t.children := by
    refine read_withoutCommentsIn _ (fun _ _ => rfl) (fun c b loose => ?_) fun c child => ?_
    · have passed := overlooks.passes c loose
      obtain ⟨_, _, _, rfl⟩ := node_of_isLooseComment loose
      simp [anyNamed, anyNamedIn, passed]
    · funext b
      rw [isNamed_withoutComments, below c (mem_nodesOf_of_mem child)]
  cases t
  rw [withoutComments, anyNamed, anyNamed, ← withoutComments, overlooks.same]
  exact congrArg _ in_children

end Reading

end SyntaxTree

namespace CodeUnit

open SyntaxTree

section Reading

variable {lang : Language} {source : String}

theorem holdsMarkup_withoutComments (t : SyntaxTree) :
    holdsMarkup t.withoutComments = holdsMarkup t := by
  refine anyNamed_withoutComments ⟨fun c loose => ?_, fun c => ?_⟩ t
  · obtain ⟨_, _, _, rfl⟩ := node_of_isLooseComment loose
    simp [SyntaxTree.kind, markupKinds]
  · simp

theorem paramName?_eq (t : SyntaxTree) : paramName? source t =
    if t.kind ∈ ["identifier", "self_parameter", "self"] then some (t.text source)
    else if t.kind ∈ ["object_pattern", "array_pattern", "comment"] then none
    else
      (paramNameAt? source (·.field? = some .pattern) t.children <|>
        paramNameAt? source (·.field? = some .name) t.children <|>
        paramNameAt? source (·.field? = some .left) t.children <|>
        paramNameAt? source (fun c => c.isNamed && c.kind = "identifier") t.children).join := by
  cases t
  rw [paramName?]
  rfl

theorem propNames_eq (t : SyntaxTree) : propNames source t =
    if t.kind = "object_pattern" then t.namedChildren.filterMap (propName? source)
    else
      (propNamesAt? source .pattern t.children <|>
        propNamesAt? source .left t.children).getD [] := by
  cases t
  rw [propNames]
  rfl

theorem hookCalls_eq (t : SyntaxTree) : hookCalls source t =
    (calledHook? source t).toList ++ hookCallsIn source t.children := by
  cases t
  rw [hookCalls]
  rfl

theorem paramName?_withoutComments (t : SyntaxTree) :
    paramName? source t.withoutComments = paramName? source t := by
  induction t using below_induction with | step t below =>
  have at_pick {pick : SyntaxTree → Bool} (overlooks : Overlooks pick) :
      paramNameAt? source pick (withoutCommentsIn t.children) =
        paramNameAt? source pick t.children := by
    refine read_withoutCommentsIn _ (fun _ _ => rfl) (fun c b loose => ?_) fun c child => ?_
    · simp [overlooks.passes c loose]
    · rw [overlooks.same, below c (mem_nodesOf_of_mem child)]
  have identifiers : Overlooks fun c => c.isNamed && c.kind = "identifier" := by
    constructor
    · intro c loose
      obtain ⟨_, _, _, rfl⟩ := node_of_isLooseComment loose
      simp [SyntaxTree.kind]
    · simp
  rw [paramName?_eq, paramName?_eq, kind_withoutComments, text_withoutComments,
    children_withoutComments, at_pick (overlooks_field _), at_pick (overlooks_field _),
    at_pick (overlooks_field _), at_pick identifiers]

theorem paramName?_of_loose {t : SyntaxTree} (loose : t.isLooseComment) :
    paramName? source t = none := by
  obtain ⟨_, _, _, rfl⟩ := node_of_isLooseComment loose
  simp [paramName?]

theorem propName?_withoutComments (t : SyntaxTree) :
    propName? source t.withoutComments = propName? source t := by
  simp [propName?]

theorem propNames_of_loose {t : SyntaxTree} (loose : t.isLooseComment) :
    propNames source t = [] := by
  obtain ⟨_, _, _, rfl⟩ := node_of_isLooseComment loose
  simp [propNames, propNamesAt?]

theorem propNames_withoutComments (t : SyntaxTree) :
    propNames source t.withoutComments = propNames source t := by
  induction t using below_induction with | step t below =>
  have at_field (field : Field) : propNamesAt? source field (withoutCommentsIn t.children) =
      propNamesAt? source field t.children := by
    refine read_withoutCommentsIn _ (fun _ _ => rfl) (fun c b loose => ?_) fun c child => ?_
    · exact if_neg (of_decide_eq_false ((overlooks_field field).passes c loose))
    · rw [field?_withoutComments, below c (mem_nodesOf_of_mem child)]
  have parts : t.withoutComments.namedChildren.filterMap (propName? source) =
      t.namedChildren.filterMap (propName? source) := by
    rw [namedChildren_withoutComments]
    refine filterMap_withoutCommentsIn _ (fun c loose => ?_) propName?_withoutComments
    obtain ⟨_, _, _, rfl⟩ := node_of_isLooseComment loose
    rfl
  rw [propNames_eq, propNames_eq, kind_withoutComments, children_withoutComments, parts, at_field,
    at_field]

theorem hookCalls_withoutComments (t : SyntaxTree) :
    hookCalls source t.withoutComments = hookCalls source t := by
  induction t using below_induction with | step t below =>
  have in_children : hookCallsIn source (withoutCommentsIn t.children) =
      hookCallsIn source t.children := by
    refine read_withoutCommentsIn _ (fun _ _ => rfl) (fun c b loose => ?_) fun c child => ?_
    · obtain ⟨_, _, _, rfl⟩ := node_of_isLooseComment loose
      simp [hookCalls, hookCallsIn, calledHook?, SyntaxTree.kind]
    · rw [isNamed_withoutComments, below c (mem_nodesOf_of_mem child)]
  have called : calledHook? source t.withoutComments = calledHook? source t := by
    simp [calledHook?, Option.bind_map]
  rw [hookCalls_eq, hookCalls_eq, called, children_withoutComments, in_children]

theorem isAsync_withoutComments (t : SyntaxTree) :
    isAsync source t.withoutComments = isAsync source t := by
  rw [isAsync, isAsync, children_withoutComments]
  refine read_withoutCommentsIn (List.any · _) (fun _ _ => List.any_cons) (fun c b loose => ?_)
    fun c _ => ?_
  · obtain ⟨_, _, _, rfl⟩ := node_of_isLooseComment loose
    simp [SyntaxTree.kind]
  · simp

end Reading

section Values

variable {lang : Language} {source : String} {t : SyntaxTree}

theorem wrapper?_withoutComments (t : SyntaxTree) :
    wrapper? source t.withoutComments = (wrapper? source t).map withoutComments := by
  simp only [wrapper?, kind_withoutComments, fieldText?_withoutComments, child?_withoutComments]
  repeat' split
  all_goals rfl

/-- The first named child is a loose comment. -/
def CommentLed (t : SyntaxTree) : Prop := ∃ c ∈ t.namedChildren.head?, c.isLooseComment

/-- A comment stands first in a wrapper, or in one that stands first in it. -/
inductive Covered (source : String) : SyntaxTree → Prop
  | here {t held : SyntaxTree} (wrapped : wrapper? source t = some held) (led : CommentLed held) :
    Covered source t
  | inside {t held c : SyntaxTree} (wrapped : wrapper? source t = some held)
    (first : held.namedChildren.head? = some c) (deeper : Covered source c) : Covered source t

theorem functionValue?_of_loose (loose : t.isLooseComment) :
    functionValue? lang source t = none := by
  obtain ⟨_, _, _, rfl⟩ := node_of_isLooseComment loose
  rw [functionValue?_eq]
  cases lang <;> simp [wrapper?, SyntaxTree.kind, Language.functionValues]

/-- No function is found behind a comment. -/
theorem functionValue?_of_covered (covered : Covered source t) :
    functionValue? lang source t = none := by
  induction covered with
  | here wrapped led =>
    obtain ⟨c, first, loose⟩ := led
    rw [functionValue?_eq, if_neg (not_functionValue_of_wrapper? wrapped), wrapped,
      Option.bind_some, Option.mem_def.mp first, Option.bind_some, functionValue?_of_loose loose]
  | inside wrapped first deeper ih =>
    rw [functionValue?_eq, if_neg (not_functionValue_of_wrapper? wrapped), wrapped,
      Option.bind_some, first, Option.bind_some, ih]

theorem head?_namedChildren_withoutComments (open_front : ¬ CommentLed t) :
    t.withoutComments.namedChildren.head? = t.namedChildren.head?.map withoutComments := by
  rw [namedChildren_withoutComments, head?_withoutCommentsIn]
  cases children : t.namedChildren with
  | nil => rfl
  | cons c rest =>
    have kept : ¬ c.isLooseComment := by
      intro loose
      exact open_front ⟨c, by rw [children]; rfl, loose⟩
    rw [List.find?_cons_of_pos (by simpa using kept), List.head?_cons]

/-- Where no comment covers it, the same function is found without the comments. -/
theorem functionValue?_withoutComments (uncovered : ¬ Covered source t) :
    functionValue? lang source t.withoutComments =
      (functionValue? lang source t).map withoutComments := by
  induction t using below_induction with | step t below =>
  rw [functionValue?_eq, functionValue?_eq t, kind_withoutComments, wrapper?_withoutComments]
  split
  next => rfl
  next =>
    cases wrapped : wrapper? source t with
    | none => rfl
    | some held =>
      -- What stands first is no comment, so it also stands first without the comments.
      have open_front : ¬ CommentLed held := fun led => uncovered (.here wrapped led)
      rw [Option.map_some, Option.bind_some, Option.bind_some,
        head?_namedChildren_withoutComments open_front]
      cases first : held.namedChildren.head? with
      | none => rfl
      | some c =>
        exact below c (below_of_wrapper? wrapped first)
          fun deeper => uncovered (.inside wrapped first deeper)

/-- A comment keeps the function that an expression stands for from being found. -/
structure HidesFunction (lang : Language) (source : String) (t : SyntaxTree) : Prop where
  covered : Covered source t
  found : (functionValue? lang source t.withoutComments).isSome

theorem functionValue?_of_not_hidesFunction (unhidden : ¬ HidesFunction lang source t) :
    functionValue? lang source t.withoutComments =
      (functionValue? lang source t).map SyntaxTree.withoutComments := by
  by_cases covered : Covered source t
  · cases found : functionValue? lang source t.withoutComments with
    | none => rw [functionValue?_of_covered covered, Option.map_none]
    | some f => exact absurd ⟨covered, by rw [found]; rfl⟩ unhidden
  · exact functionValue?_withoutComments covered

theorem hidesFunction_iff : HidesFunction lang source t ↔
    (functionValue? lang source t).isNone ∧
      (functionValue? lang source t.withoutComments).isSome := by
  constructor
  · intro hides
    rw [functionValue?_of_covered hides.covered]
    exact ⟨rfl, hides.found⟩
  · rintro ⟨missed, found⟩
    by_contra unhidden
    rw [functionValue?_of_not_hidesFunction unhidden, Option.isNone_iff_eq_none.mp missed] at found
    cases found

instance : Decidable (HidesFunction lang source t) := decidable_of_iff' _ hidesFunction_iff

end Values

end CodeUnit

end Lookalike
