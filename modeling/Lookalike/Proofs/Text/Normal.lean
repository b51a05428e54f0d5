import Lookalike.Code.Normal
import Mathlib.Data.List.DropRight
import Mathlib.Data.List.TakeDrop
import Mathlib.Data.String.Basic

/-!
# What the normal form of a text depends on

A text is seen as lines of code that are written out: each behind a common indentation, with blanks
and a line end after it, and blank lines anywhere between them. The normal form depends on the lines
alone. No cut falls outside a line or into a character, and a normal form that was not shortened is
its own normal form.
-/

namespace Lookalike.Text

/-- There is more than blanks on the line. -/
def HasInk (line : List Char) : Prop := ∃ c ∈ line, isBlank c = false

instance (line : List Char) : Decidable (HasInk line) :=
  List.decidableBEx _ line

/-- Blanks that do not end the line. -/
def IsGap (gap : List Char) : Prop := ∀ c ∈ gap, isBlank c ∧ c ≠ '\n'

instance (gap : List Char) : Decidable (IsGap gap) :=
  List.decidableBAll _ gap

def lineEnds : List (List Char) := [['\n'], ['\r', '\n']]

/-- A text that writes lines out. The lines with ink stand behind one indentation, each with a gap
and a line end after it, and the last one may lack its line end. Blank lines may be left out, and
others may be put in. A line feed among the blanks after a line is the end of that line, with a
blank line put in behind it. -/
inductive Spells (indent : List Char) : List (List Char) → List Char → Prop
  | done {gap} (blank : IsGap gap) : Spells indent [] gap
  | last {line gap} {rest : List (List Char)} (free : '\n' ∉ line) (ink : HasInk line)
      (blank : IsGap gap) (none_left : ∀ other ∈ rest, ¬ HasInk other) :
      Spells indent (line :: rest) (indent ++ line ++ gap)
  | line {line gap ending rest text} (free : '\n' ∉ line) (ink : HasInk line) (blank : IsGap gap)
      (ends : ending ∈ lineEnds) (others : Spells indent rest text) :
      Spells indent (line :: rest) (indent ++ line ++ gap ++ ending ++ text)
  | inserted {gap ending lines text} (blank : IsGap gap) (ends : ending ∈ lineEnds)
      (others : Spells indent lines text) : Spells indent lines (gap ++ ending ++ text)
  | omitted {line rest text} (blank : ¬ HasInk line) (others : Spells indent rest text) :
      Spells indent (line :: rest) text

section Trimming

variable {line front gap : List Char}

theorem isBlank_of_isIndent {c : Char} (indents : isIndent c) : isBlank c := by
  simp only [isIndent, Bool.or_eq_true, decide_eq_true_eq] at indents
  rcases indents with rfl | rfl <;> decide

theorem not_hasInk_iff : ¬ HasInk line ↔ ∀ c ∈ line, isBlank c := by
  simp [HasInk]

theorem trimEnd_eq_rdropWhile (line : List Char) : trimEnd line = line.rdropWhile isBlank := rfl

theorem trimEnd_eq_nil_iff : trimEnd line = [] ↔ ¬ HasInk line := by
  rw [trimEnd_eq_rdropWhile, List.rdropWhile_eq_nil_iff, not_hasInk_iff]

theorem trimEnd_trimEnd (line : List Char) : trimEnd (trimEnd line) = trimEnd line :=
  List.rdropWhile_idempotent isBlank line

theorem trimEnd_cons (c : Char) (line : List Char) :
    trimEnd (c :: line) = if isBlank c ∧ trimEnd line = [] then [] else c :: trimEnd line := by
  simp only [trimEnd, List.reverse_cons, List.dropWhile_append]
  by_cases none_left : line.reverse.dropWhile isBlank = []
  · by_cases blank : isBlank c <;> simp [none_left, blank]
  · simp [none_left]

theorem trimEnd_append_gap (blank : ∀ c ∈ gap, isBlank c) :
    trimEnd (line ++ gap) = trimEnd line := by
  have gone : gap.reverse.dropWhile isBlank = [] := by
    rw [List.dropWhile_eq_nil_iff]
    exact fun c member => blank c (List.mem_reverse.mp member)
  simp only [trimEnd, List.reverse_append, List.dropWhile_append, gone, List.isEmpty_nil, if_true]

theorem trimEnd_append_of_ink (ink : HasInk line) :
    trimEnd (front ++ line) = front ++ trimEnd line := by
  have left : line.reverse.dropWhile isBlank ≠ [] := fun nothing =>
    trimEnd_eq_nil_iff.mp (by simp [trimEnd, nothing]) ink
  simp [trimEnd, List.dropWhile_append, left]

end Trimming

section Lines

variable {line gap ending : List Char}

theorem lines_of_free (free : '\n' ∉ line) : lines line = if line = [] then [] else [line] := by
  induction line with
  | nil => rfl
  | cons c line ih =>
    simp only [List.mem_cons, not_or] at free
    have no_end : line.head? ≠ some '\n' := fun next => free.2 (List.mem_of_mem_head? next)
    rw [lines, if_neg (Ne.symm free.1), if_neg (fun both => no_end both.2), ih free.2]
    cases line <;> rfl

/-- A line feed ends the first line. The carriage return that it may take off is a blank. -/
theorem exists_lines_ended (free : '\n' ∉ line) (text : List Char) :
    ∃ first, lines (line ++ '\n' :: text) = first :: lines text ∧ trimEnd first = trimEnd line := by
  induction line with
  | nil => exact ⟨[], rfl, rfl⟩
  | cons c line ih =>
    simp only [List.mem_cons, not_or] at free
    obtain ⟨first, split, same⟩ := ih free.2
    rw [List.cons_append, lines, if_neg (Ne.symm free.1)]
    by_cases returns : c = '\r' ∧ (line ++ '\n' :: text).head? = some '\n'
    · rw [if_pos returns]
      -- The carriage return stands right before the line feed, so it is all that the line holds.
      cases line with
      | nil =>
        rw [returns.1]
        exact ⟨[], rfl, by decide⟩
      | cons next line =>
        have next_end : next = '\n' := by simpa using returns.2
        exact absurd (next_end ▸ List.mem_cons_self) free.2
    · rw [if_neg returns, split]
      refine ⟨c :: first, rfl, ?_⟩
      rw [trimEnd_cons, trimEnd_cons, same]

theorem inkLines_of_free (free : '\n' ∉ line) :
    inkLines line = [trimEnd line].filter (!·.isEmpty) := by
  rw [inkLines, lines_of_free free]
  cases line with
  | nil => rfl
  | cons c line => rfl

theorem inkLines_of_ink (free : '\n' ∉ line) (ink : HasInk line) :
    inkLines line = [trimEnd line] := by
  have kept : trimEnd line ≠ [] := fun nothing => trimEnd_eq_nil_iff.mp nothing ink
  simp [inkLines_of_free free, kept]

theorem inkLines_of_blank (free : '\n' ∉ line) (blank : ¬ HasInk line) : inkLines line = [] := by
  simp [inkLines_of_free free, trimEnd_eq_nil_iff.mpr blank]

theorem inkLines_ended (free : '\n' ∉ line) (text : List Char) :
    inkLines (line ++ '\n' :: text) = inkLines line ++ inkLines text := by
  obtain ⟨first, split, same⟩ := exists_lines_ended free text
  rw [inkLines_of_free free, inkLines, split, List.map_cons, same, inkLines,
    ← List.singleton_append, List.filter_append]

/-- Both line ends end a line after any gap. -/
theorem inkLines_append_ending (free : '\n' ∉ line) (ends : ending ∈ lineEnds)
    (text : List Char) : inkLines (line ++ ending ++ text) = inkLines line ++ inkLines text := by
  simp only [lineEnds, List.mem_cons, List.not_mem_nil, or_false] at ends
  rcases ends with rfl | rfl
  · rw [List.append_assoc]
    exact inkLines_ended free text
  · have free_return : '\n' ∉ line ++ ['\r'] := by simp [free]
    have same : trimEnd (line ++ ['\r']) = trimEnd line :=
      trimEnd_append_gap (List.forall_mem_singleton.mpr (by decide))
    calc inkLines (line ++ ['\r', '\n'] ++ text)
        = inkLines (line ++ ['\r'] ++ '\n' :: text) := by simp
      _ = inkLines (line ++ ['\r']) ++ inkLines text := inkLines_ended free_return text
      _ = inkLines line ++ inkLines text := by
        rw [inkLines_of_free free_return, same, inkLines_of_free free]

theorem IsGap.free (blank : IsGap gap) : '\n' ∉ gap := fun member => (blank _ member).2 rfl

theorem IsGap.not_hasInk (blank : IsGap gap) : ¬ HasInk gap :=
  not_hasInk_iff.mpr fun c member => (blank c member).1

end Lines

section Spelling

variable {indent line gap text : List Char} {code : List (List Char)}

theorem free_of_indents (indents : ∀ c ∈ indent, isIndent c) : '\n' ∉ indent := fun member =>
  absurd (indents _ member) (by decide)

/-- What a line with ink leaves, wherever it stands. -/
theorem inkLines_written (indents : ∀ c ∈ indent, isIndent c) (free : '\n' ∉ line)
    (ink : HasInk line) (blank : IsGap gap) :
    '\n' ∉ indent ++ line ++ gap ∧
      inkLines (indent ++ line ++ gap) = [indent ++ trimEnd line] := by
  have whole_free : '\n' ∉ indent ++ line ++ gap := by
    simp [free_of_indents indents, free, blank.free]
  refine ⟨whole_free, ?_⟩
  rw [inkLines_of_free whole_free, trimEnd_append_gap fun c member => (blank c member).1,
    trimEnd_append_of_ink ink]
  have kept : trimEnd line ≠ [] := fun nothing => trimEnd_eq_nil_iff.mp nothing ink
  simp [kept]

/-- A spelling keeps of its lines what ink they have, in order. -/
theorem Spells.inkLines_eq (indents : ∀ c ∈ indent, isIndent c)
    (spelled : Spells indent code text) :
    inkLines text = ((code.filter (HasInk ·)).map trimEnd).map (indent ++ ·) := by
  induction spelled with
  | done blank => exact inkLines_of_blank blank.free blank.not_hasInk
  | @last line gap rest free ink blank none_left =>
    have dropped : rest.filter (HasInk ·) = [] := by simpa using none_left
    rw [(inkLines_written indents free ink blank).2]
    simp [ink, dropped]
  | @line line gap ending rest text free ink blank ends _ ih =>
    obtain ⟨whole_free, written⟩ := inkLines_written indents free ink blank
    rw [inkLines_append_ending whole_free ends, written, ih]
    simp [ink]
  | @inserted gap ending code text blank ends _ ih =>
    rw [inkLines_append_ending blank.free ends, inkLines_of_blank blank.free blank.not_hasInk,
      List.nil_append, ih]
  | omitted blank _ ih => rw [ih, List.filter_cons_of_neg (by simpa using blank)]

end Spelling

section Dedenting

variable {indent line : List Char} {code : List (List Char)}

/-- How many characters of indentation all lines share. -/
def sharedIndentation (code : List (List Char)) : Nat := ((code.map indentation).min?).getD 0

theorem dedent_eq (code : List (List Char)) :
    dedent code = code.map (·.drop (sharedIndentation code)) := rfl

theorem sharedIndentation_le (member : line ∈ code) :
    sharedIndentation code ≤ indentation line := by
  have among : indentation line ∈ code.map indentation := List.mem_map_of_mem member
  cases least : (code.map indentation).min? with
  | none =>
    rw [List.min?_eq_none_iff] at least
    exact absurd among (least ▸ List.not_mem_nil)
  | some n =>
    rw [sharedIndentation, least]
    exact (List.min?_eq_some_iff.mp least).2 _ among

theorem exists_indentation_eq (some_line : code ≠ []) :
    ∃ line ∈ code, indentation line = sharedIndentation code := by
  cases least : (code.map indentation).min? with
  | none => exact absurd (List.map_eq_nil_iff.mp (List.min?_eq_none_iff.mp least)) some_line
  | some n =>
    obtain ⟨line, member, same⟩ := List.mem_map.mp (List.min?_eq_some_iff.mp least).1
    refine ⟨line, member, ?_⟩
    rw [sharedIndentation, least, same]
    rfl

theorem indentation_append (indents : ∀ c ∈ indent, isIndent c) :
    indentation (indent ++ line) = indent.length + indentation line := by
  rw [indentation, List.takeWhile_append_of_pos indents, List.length_append, indentation]

theorem sharedIndentation_map_append (indents : ∀ c ∈ indent, isIndent c)
    (some_line : code ≠ []) :
    sharedIndentation (code.map (indent ++ ·)) = indent.length + sharedIndentation code := by
  obtain ⟨line, member, least⟩ := exists_indentation_eq some_line
  have some_longer : code.map (indent ++ ·) ≠ [] := by simpa using some_line
  obtain ⟨longer, among, least_longer⟩ := exists_indentation_eq some_longer
  obtain ⟨other, other_member, rfl⟩ := List.mem_map.mp among
  have below := sharedIndentation_le (List.mem_map_of_mem (f := (indent ++ ·)) member)
  have above := sharedIndentation_le other_member
  rw [indentation_append indents] at below least_longer
  omega

/-- An indentation in front of every line goes with the one that the lines share. -/
theorem dedent_map_append (indents : ∀ c ∈ indent, isIndent c) (code : List (List Char)) :
    dedent (code.map (indent ++ ·)) = dedent code := by
  by_cases none_left : code = []
  · rw [none_left]
    rfl
  · rw [dedent_eq, dedent_eq, sharedIndentation_map_append indents none_left, List.map_map]
    refine List.map_congr_left fun line _ => ?_
    exact List.drop_length_add_append _

/-- The normal form is that of the lines which the text writes out. -/
theorem Spells.normalForm_eq {text : List Char} (indents : ∀ c ∈ indent, isIndent c)
    (spelled : Spells indent code text) (maxChars : Nat) :
    normalForm text maxChars =
      (joinLines (dedent ((code.filter (HasInk ·)).map trimEnd))).take maxChars := by
  rw [normalForm, spelled.inkLines_eq indents, dedent_map_append indents]

end Dedenting

section Cuts

variable {line : List Char} {code : List (List Char)} {n : Nat}

/-- Within the indentation of a line there is nothing but indentation. -/
theorem indents_of_take (within : n ≤ indentation line) : ∀ c ∈ line.take n, isIndent c := by
  have part : line.take n <+: line.takeWhile isIndent := by
    refine List.prefix_of_prefix_length_le (List.take_prefix n line)
      (List.takeWhile_prefix isIndent) ?_
    rw [List.length_take]
    exact le_trans (Nat.min_le_left _ _) within
  exact fun c member => List.mem_takeWhile_imp (part.subset member)

theorem length_take_of_within (within : n ≤ indentation line) : (line.take n).length = n := by
  have shorter : indentation line ≤ line.length := (List.takeWhile_prefix isIndent).length_le
  rw [List.length_take]
  omega

theorem indentation_drop (within : n ≤ indentation line) :
    indentation (line.drop n) + n = indentation line := by
  have parts : indentation (line.take n ++ line.drop n) =
      (line.take n).length + indentation (line.drop n) :=
    indentation_append (indents_of_take within)
  rw [List.take_append_drop, length_take_of_within within] at parts
  omega

/-- An indentation has one byte for each character. -/
theorem utf8Len_of_indents {indent : List Char} (indents : ∀ c ∈ indent, isIndent c) :
    String.utf8Len indent = indent.length := by
  induction indent with
  | nil => rfl
  | cons c indent ih =>
    have one_byte : c.utf8Size = 1 := by
      have first := indents c List.mem_cons_self
      simp only [isIndent, Bool.or_eq_true, decide_eq_true_eq] at first
      rcases first with rfl | rfl <;> decide
    have others := ih fun d member => indents d (List.mem_cons_of_mem c member)
    rw [String.utf8Len_cons, List.length_cons, one_byte, others]

theorem isValid_of_append (front back : List Char) :
    String.Pos.Raw.IsValid (String.ofList (front ++ back)) ⟨String.utf8Len front⟩ := by
  rw [String.Pos.Raw.isValid_iff_exists_append]
  refine ⟨String.ofList front, String.ofList back, String.ofList_append, ?_⟩
  rw [String.rawEndPos, String.utf8ByteSize_ofList]

/-- A line can be cut at any byte of its indentation. -/
theorem extract_of_within (within : n ≤ indentation line) :
    String.Pos.Raw.IsValid (String.ofList line) ⟨n⟩ ∧
      String.Pos.Raw.extract (String.ofList line) ⟨n⟩ (String.ofList line).rawEndPos =
        String.ofList (line.drop n) := by
  have bytes : String.utf8Len (line.take n) = n := by
    rw [utf8Len_of_indents (indents_of_take within), length_take_of_within within]
  have whole : line.take n ++ line.drop n = line := List.take_append_drop n line
  have valid := isValid_of_append (line.take n) (line.drop n)
  have rest := String.extract_of_valid (line.take n) (line.drop n) []
  rw [whole, bytes] at valid
  rw [List.append_nil, whole, ← String.utf8Len_append, whole, bytes] at rest
  refine ⟨valid, ?_⟩
  rw [String.rawEndPos, String.utf8ByteSize_ofList]
  exact rest

end Cuts

section Again

variable {line text : List Char} {code : List (List Char)} {n : Nat}

/-- A line as the normal form has it, apart from its indentation. -/
structure IsTrimmed (line : List Char) : Prop where
  free : '\n' ∉ line
  ink : HasInk line
  trimmed : trimEnd line = line

theorem free_of_mem_lines (member : line ∈ lines text) : '\n' ∉ line := by
  induction text generalizing line with
  | nil => cases member
  | cons c text ih =>
    rw [lines] at member
    split at member
    next =>
      rcases List.mem_cons.mp member with rfl | later
      · exact List.not_mem_nil
      · exact ih later
    next other =>
      split at member
      next => exact ih member
      next =>
        cases split : lines text with
        | nil =>
          rw [split, pushFront, List.mem_singleton] at member
          simpa [member] using Ne.symm other
        | cons first rest =>
          rw [split, pushFront] at member
          rcases List.mem_cons.mp member with rfl | later
          · have first_free : '\n' ∉ first := ih (split ▸ List.mem_cons_self)
            simp [Ne.symm other, first_free]
          · exact ih (split ▸ List.mem_cons_of_mem first later)

theorem isTrimmed_of_mem_inkLines (member : line ∈ inkLines text) : IsTrimmed line := by
  rw [inkLines, List.mem_filter] at member
  obtain ⟨among, kept⟩ := member
  obtain ⟨whole, of_text, rfl⟩ := List.mem_map.mp among
  have ink : HasInk (trimEnd whole) := by
    by_contra blank
    have nothing : trimEnd (trimEnd whole) = [] := trimEnd_eq_nil_iff.mpr blank
    rw [trimEnd_trimEnd] at nothing
    simp [nothing] at kept
  have part : trimEnd whole <+: whole := List.rdropWhile_prefix isBlank whole
  exact ⟨fun feed => free_of_mem_lines of_text (part.subset feed), ink, trimEnd_trimEnd whole⟩

theorem IsTrimmed.drop (h : IsTrimmed line) (within : n ≤ indentation line) :
    IsTrimmed (line.drop n) := by
  have whole : line.take n ++ line.drop n = line := List.take_append_drop n line
  have ink : HasInk (line.drop n) := by
    obtain ⟨c, member, not_blank⟩ := h.ink
    rw [← whole] at member
    rcases List.mem_append.mp member with front | back
    · rw [isBlank_of_isIndent (indents_of_take within c front)] at not_blank
      cases not_blank
    · exact ⟨c, back, not_blank⟩
  refine ⟨fun feed => h.free (List.mem_of_mem_drop feed), ink, ?_⟩
  have trimmed := h.trimmed
  rw [← whole, trimEnd_append_of_ink ink] at trimmed
  exact List.append_cancel_left trimmed

theorem isTrimmed_of_mem_dedent (trimmed : ∀ line ∈ code, IsTrimmed line)
    (member : line ∈ dedent code) : IsTrimmed line := by
  rw [dedent_eq] at member
  obtain ⟨whole, among, rfl⟩ := List.mem_map.mp member
  exact (trimmed whole among).drop (sharedIndentation_le among)

/-- Lines that are trimmed are told by the text that joins them. -/
theorem inkLines_joinLines (trimmed : ∀ line ∈ code, IsTrimmed line) :
    inkLines (joinLines code) = code := by
  induction code with
  | nil => rfl
  | cons line code ih =>
    have first := trimmed line List.mem_cons_self
    have others := ih fun other member => trimmed other (List.mem_cons_of_mem line member)
    have alone : inkLines line = [line] := by
      rw [inkLines_of_ink first.free first.ink, first.trimmed]
    cases code with
    | nil => exact alone
    | cons next code =>
      rw [joinLines, inkLines_ended first.free, alone, others, List.singleton_append]

theorem dedent_dedent (code : List (List Char)) : dedent (dedent code) = dedent code := by
  by_cases none_left : code = []
  · rw [none_left]
    rfl
  · obtain ⟨line, member, least⟩ := exists_indentation_eq none_left
    have first := indentation_drop (Nat.le_of_eq least.symm)
    have nothing_shared : sharedIndentation (dedent code) ≤ 0 := by
      have among : line.drop (sharedIndentation code) ∈ dedent code := List.mem_map_of_mem member
      have bound := sharedIndentation_le among
      omega
    rw [dedent_eq (dedent code), Nat.le_zero.mp nothing_shared]
    exact (List.map_congr_left fun line _ => List.drop_zero).trans (List.map_id _)

/-- A normal form that was not shortened is its own normal form. -/
theorem normalForm_normalForm {maxChars : Nat}
    (uncut : (joinLines (dedent (inkLines text))).length ≤ maxChars) :
    normalForm (normalForm text maxChars) maxChars = normalForm text maxChars := by
  have trimmed : ∀ line ∈ dedent (inkLines text), IsTrimmed line := fun line member =>
    isTrimmed_of_mem_dedent (fun whole => isTrimmed_of_mem_inkLines) member
  have whole : normalForm text maxChars = joinLines (dedent (inkLines text)) :=
    List.take_of_length_le uncut
  rw [whole, normalForm, inkLines_joinLines trimmed, dedent_dedent, List.take_of_length_le uncut]

end Again

section Layout

/-- The normal form of a text before it is shortened. -/
def dedented (text : String) : String := String.ofList (joinLines (dedent (inkLines text.toList)))

theorem normalize_eq_dedented_iff {text : String} {maxChars : Nat} :
    normalize text maxChars = dedented text ↔
      (joinLines (dedent (inkLines text.toList))).length ≤ maxChars := by
  rw [normalize, dedented, String.ofList_inj, normalForm, List.take_eq_self_iff]

theorem length_normalize_le (text : String) (maxChars : Nat) :
    (normalize text maxChars).length ≤ maxChars := by
  rw [normalize, String.length_ofList, normalForm]
  exact List.length_take_le _ _

/-- Shortening cuts between two characters. -/
theorem exists_cut (text : String) (maxChars : Nat) :
    ∃ cut, String.Pos.Raw.IsValid (dedented text) cut ∧
      normalize text maxChars = String.Pos.Raw.extract (dedented text) 0 cut := by
  let whole := joinLines (dedent (inkLines text.toList))
  have parts : whole.take maxChars ++ whole.drop maxChars = whole := List.take_append_drop _ _
  have valid := isValid_of_append (whole.take maxChars) (whole.drop maxChars)
  have kept := String.extract_of_valid [] (whole.take maxChars) (whole.drop maxChars)
  rw [List.nil_append, parts] at kept
  rw [parts] at valid
  refine ⟨_, valid, kept.symm.trans ?_⟩
  rw [String.utf8Len_nil, Nat.zero_add]
  rfl

/-- Two texts that write the same lines out have one normal form, whatever their indentations, gaps,
line ends and blank lines are. On the way to the normal form of any text, each line is cut at a
byte within it where a character starts, and so is the whole; the normal form is as short as asked
for, and it is its own normal form if nothing was cut off its end. -/
theorem normalize_ignores_layout (maxChars : Nat) :
    (∀ (indent indent' : List Char) (code : List (List Char)) (text text' : String),
      (∀ c ∈ indent, isIndent c) → (∀ c ∈ indent', isIndent c) →
      Spells indent code text.toList → Spells indent' code text'.toList →
      normalize text maxChars = normalize text' maxChars) ∧
    ∀ text : String,
      (∀ line ∈ inkLines text.toList,
        String.Pos.Raw.IsValid (String.ofList line) ⟨sharedIndentation (inkLines text.toList)⟩ ∧
        String.Pos.Raw.extract (String.ofList line) ⟨sharedIndentation (inkLines text.toList)⟩
            (String.ofList line).rawEndPos =
          String.ofList (line.drop (sharedIndentation (inkLines text.toList)))) ∧
      (∃ cut, String.Pos.Raw.IsValid (dedented text) cut ∧
        normalize text maxChars = String.Pos.Raw.extract (dedented text) 0 cut) ∧
      (normalize text maxChars).length ≤ maxChars ∧
      (normalize text maxChars = dedented text →
        normalize (normalize text maxChars) maxChars = normalize text maxChars) := by
  refine ⟨?_, fun text => ⟨?_, exists_cut text maxChars, length_normalize_le text maxChars, ?_⟩⟩
  · intro indent indent' code text text' indents indents' spelled spelled'
    rw [normalize, normalize, spelled.normalForm_eq indents, spelled'.normalForm_eq indents']
  · intro line member
    exact extract_of_within (sharedIndentation_le member)
  · intro uncut
    have again := normalForm_normalForm (normalize_eq_dedented_iff.mp uncut)
    rw [normalize, normalize, String.toList_ofList, again]

def codeSample : List (List Char) :=
  ["def é():".toList, "  return 1".toList, "".toList, "é()".toList]

/-- One spelling of the lines: indented, with trailing blanks, and the blank line moved. -/
def looseSample : String := "\t def é(): \t\r\n\u3000\n\t   return 1\n\t é()\u00a0"

def plainSample : String := "def é():\n  return 1\n\né()\n"

theorem spells_looseSample : Spells ['\t', ' '] codeSample looseSample.toList := by
  have written : looseSample.toList =
      ['\t', ' '] ++ "def é():".toList ++ [' ', '\t'] ++ ['\r', '\n'] ++
        (['\u3000'] ++ ['\n'] ++
          (['\t', ' '] ++ "  return 1".toList ++ [] ++ ['\n'] ++
            (['\t', ' '] ++ "é()".toList ++ ['\u00a0']))) := by decide
  rw [written]
  refine .line (by decide) (by decide) (by decide) (by decide) ?_
  refine .inserted (by decide) (by decide) ?_
  refine .line (by decide) (by decide) (by decide) (by decide) ?_
  refine .omitted (by decide) ?_
  exact .last (by decide) (by decide) (by decide) (by decide)

theorem spells_plainSample : Spells [] codeSample plainSample.toList := by
  have written : plainSample.toList =
      [] ++ "def é():".toList ++ [] ++ ['\n'] ++
        ([] ++ "  return 1".toList ++ [] ++ ['\n'] ++
          ([] ++ ['\n'] ++ ([] ++ "é()".toList ++ [] ++ ['\n'] ++ []))) := by decide
  rw [written]
  refine .line (by decide) (by decide) (by decide) (by decide) ?_
  refine .line (by decide) (by decide) (by decide) (by decide) ?_
  refine .omitted (by decide) (.inserted (by decide) (by decide) ?_)
  exact .line (by decide) (by decide) (by decide) (by decide) (.done (by decide))

theorem normalize_ignores_layout_samples :
    normalize looseSample 100 = normalize plainSample 100 ∧
    normalize looseSample 100 = "def é():\n  return 1\né()" ∧
    String.Pos.Raw.IsValid "\t   return 1" ⟨2⟩ ∧
    normalize (normalize looseSample 100) 100 = normalize looseSample 100 :=
  ⟨(normalize_ignores_layout 100).1 ['\t', ' '] [] codeSample looseSample plainSample
      (by simp [isIndent]) (by simp) spells_looseSample spells_plainSample,
    by decide +kernel,
    (((normalize_ignores_layout 100).2 looseSample).1 "\t   return 1".toList
      (by decide +kernel)).1,
    ((normalize_ignores_layout 100).2 looseSample).2.2.2 (by decide +kernel)⟩

end Layout

end Lookalike.Text
