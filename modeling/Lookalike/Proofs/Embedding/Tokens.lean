import Lookalike.Embedding.Tokens

/-!
# Cutting identifiers into words

An identifier is cut from its front: an underscore is passed, and where none stands, the word there
is cut off. Nothing bounds these steps, and at a character at which no word starts they would go on
for ever; the identifiers of a text have no such character. Main result: each of them is cut to its
end, into words that follow each other with nothing but underscores around them, and the tokens of
a text are those of what stands on either side of any character outside of identifiers.
-/

namespace Lookalike.Tokens

section Front

theorem isAlphanum_iff (c : Char) : c.isAlphanum ↔ c.isUpper ∨ isTail c := by
  have spelled : c.isAlphanum = (c.isUpper || isTail c) := Bool.or_assoc _ _ _
  rw [spelled, Bool.or_eq_true]

theorem isWordChar_iff (c : Char) : isWordChar c ↔ c.isAlphanum ∨ c = '_' := by
  simp [isWordChar]

theorem ne_underscore {c : Char} (letter : c.isAlphanum) : c ≠ '_' := by
  rintro rfl
  exact absurd letter (by decide)

/-- A word starts at letters and digits and nowhere else. -/
theorem wordLength_pos_iff (c : Char) (rest : List Char) :
    0 < wordLength (c :: rest) ↔ c.isAlphanum := by
  rw [isAlphanum_iff]
  by_cases upper : c.isUpper
  · simp only [upper, true_or, iff_true]
    have capitals : ((c :: rest).takeWhile Char.isUpper).length ≠ 0 := by
      simp [List.takeWhile_cons_of_pos upper]
    simp only [wordLength, capitals, if_false]
    split
    · split
      · omega
      · omega
    · omega
  · have none_capital : ((c :: rest).takeWhile Char.isUpper).length = 0 := by
      simp [List.takeWhile_cons_of_neg upper]
    simp only [wordLength, none_capital, if_true, upper]
    by_cases tail : isTail c
    · simp [List.takeWhile_cons_of_pos tail, tail]
    · simp [List.takeWhile_cons_of_neg tail, tail]

theorem take_length_takeWhile (p : Char → Bool) (text : List Char) :
    text.take (text.takeWhile p).length = text.takeWhile p :=
  (List.prefix_iff_eq_take.mp (List.takeWhile_prefix p)).symm

/-- The word at the front has letters and digits only. -/
theorem isAlphanum_of_mem_word {text : List Char} {d : Char}
    (member : d ∈ text.take (wordLength text)) : d.isAlphanum := by
  have of_tail {text : List Char} (h : d ∈ text.takeWhile isTail) : d.isAlphanum :=
    (isAlphanum_iff d).mpr (.inr (List.all_eq_true.mp List.all_takeWhile d h))
  have of_capitals (h : d ∈ text.take (text.takeWhile Char.isUpper).length) : d.isAlphanum := by
    rw [take_length_takeWhile] at h
    exact (isAlphanum_iff d).mpr (.inl (List.all_eq_true.mp List.all_takeWhile d h))
  simp only [wordLength] at member
  split at member
  next => exact of_tail (take_length_takeWhile isTail text ▸ member)
  next =>
    split at member
    next =>
      split at member
      next => exact of_capitals (List.take_subset_take_left _ (Nat.sub_le _ _) member)
      next =>
        rw [List.take_add, List.mem_append, take_length_takeWhile isTail] at member
        exact member.elim of_capitals of_tail
    next => exact of_capitals member

end Front

section Cutting

/-- The cutting of a text ends with these words, whatever number of steps it takes. -/
inductive Ends : List Char → List (List Char) → Prop
  | done : Ends [] []
  | underscore {rest : List Char} {words : List (List Char)} :
      Ends rest words → Ends ('_' :: rest) words
  | word {c : Char} {rest : List Char} {words : List (List Char)} : c ≠ '_' →
      Ends ((c :: rest).drop (wordLength (c :: rest))) words →
      Ends (c :: rest) ((c :: rest).take (wordLength (c :: rest)) :: words)

/-- The words follow each other in the text, and all around them are underscores. -/
inductive Consecutive : List Char → List (List Char) → Prop
  | done : Consecutive [] []
  | underscore {rest : List Char} {words : List (List Char)} :
      Consecutive rest words → Consecutive ('_' :: rest) words
  | word {word rest : List Char} {words : List (List Char)} : word ≠ [] → '_' ∉ word →
      Consecutive rest words → Consecutive (word ++ rest) (word :: words)

variable {text : List Char} {words : List (List Char)}

/-- Nothing but the underscores is lost. -/
theorem Consecutive.flatten_eq (h : Consecutive text words) :
    words.flatten = text.filter (· ≠ '_') := by
  induction h with
  | done => rfl
  | underscore _ ih => simpa using ih
  | @word word rest words _ plain _ ih =>
    have kept : word.filter (· ≠ '_') = word :=
      List.filter_eq_self.mpr fun c member => decide_eq_true fun same => plain (same ▸ member)
    rw [List.flatten_cons, List.filter_append, kept, ih]

/-- A text on which the cutting ends has letters, digits and underscores only. -/
theorem Ends.isWordChar (h : Ends text words) : ∀ c ∈ text, isWordChar c := by
  induction h with
  | done => simp
  | underscore _ ih =>
    intro d member
    rcases List.mem_cons.mp member with rfl | member
    · decide
    · exact ih d member
  | @word c rest words _ _ ih =>
    intro d member
    rw [← List.take_append_drop (wordLength (c :: rest)) (c :: rest), List.mem_append] at member
    rcases member with front | behind
    · exact (isWordChar_iff d).mpr (.inl (isAlphanum_of_mem_word front))
    · exact ih d behind

theorem wordLength_pos {c : Char} (rest : List Char) (inside : Tokens.isWordChar c)
    (other : c ≠ '_') : 0 < wordLength (c :: rest) :=
  (wordLength_pos_iff c rest).mpr (((isWordChar_iff c).mp inside).resolve_right other)

theorem Ends.progress {c : Char} {rest : List Char} (h : Ends (c :: rest) words)
    (other : c ≠ '_') : 0 < wordLength (c :: rest) :=
  wordLength_pos rest (h.isWordChar c List.mem_cons_self) other

/-- Each step that cuts a word off makes progress, so the words are not empty. -/
theorem Ends.consecutive (h : Ends text words) : Consecutive text words := by
  induction h with
  | done => exact .done
  | underscore _ ih => exact .underscore ih
  | @word c rest words other behind ih =>
    have progress := (Ends.word other behind).progress other
    have nonempty : (c :: rest).take (wordLength (c :: rest)) ≠ [] := by
      simp [List.take_eq_nil_iff, Nat.ne_of_gt progress]
    have plain : '_' ∉ (c :: rest).take (wordLength (c :: rest)) := fun member =>
      ne_underscore (isAlphanum_of_mem_word member) rfl
    have cut := Consecutive.word nonempty plain ih
    rwa [List.take_append_drop] at cut

/-- The cutting ends on a text exactly if it has no other characters. -/
theorem exists_ends_iff (text : List Char) :
    (∃ words, Ends text words) ↔ ∀ c ∈ text, isWordChar c := by
  refine ⟨fun ⟨_, h⟩ => h.isWordChar, fun inside => ?_⟩
  -- Every step leaves a shorter text, whose characters are among those of the whole.
  induction size : text.length using Nat.strongRecOn generalizing text with
  | ind n ih =>
    cases text with
    | nil => exact ⟨[], .done⟩
    | cons c rest =>
      subst size
      by_cases underscore : c = '_'
      · subst underscore
        obtain ⟨words, h⟩ := ih rest.length (by simp) rest
          (fun d member => inside d (List.mem_cons_of_mem _ member)) rfl
        exact ⟨words, .underscore h⟩
      · have progress := wordLength_pos rest (inside c List.mem_cons_self) underscore
        obtain ⟨words, h⟩ := ih _ (by simp; omega) ((c :: rest).drop (wordLength (c :: rest)))
          (fun d member => inside d (List.mem_of_mem_drop member)) rfl
        exact ⟨_, .word underscore h⟩

theorem ends_of_wordsWithin? {n : Nat} (h : wordsWithin? n text = some words) :
    Ends text words := by
  induction n generalizing text words with
  | zero =>
    cases text with
    | nil =>
      cases h
      exact .done
    | cons c rest => cases h
  | succ n ih =>
    cases text with
    | nil =>
      cases h
      exact .done
    | cons c rest =>
      rw [wordsWithin?] at h
      split at h
      next same =>
        subst same
        exact .underscore (ih h)
      next other =>
        obtain ⟨behind, cut, rfl⟩ := Option.map_eq_some_iff.mp h
        exact .word other (ih cut)

/-- As many steps as there are characters are enough where any number is. -/
theorem Ends.wordsWithin?_eq (h : Ends text words) {n : Nat} (enough : text.length ≤ n) :
    wordsWithin? n text = some words := by
  induction h generalizing n with
  | done => simp [wordsWithin?]
  | underscore _ ih =>
    cases n with
    | zero => simp at enough
    | succ n =>
      rw [wordsWithin?, if_pos rfl]
      exact ih (by simpa using enough)
  | @word c rest words other behind ih =>
    cases n with
    | zero => simp at enough
    | succ n =>
      have progress := (Ends.word other behind).progress other
      have shorter : ((c :: rest).drop (wordLength (c :: rest))).length ≤ n := by
        simp only [List.length_drop, List.length_cons] at enough ⊢
        omega
      simp only [wordsWithin?, other, if_false, ih shorter, Option.map_some]

theorem words?_eq_some_iff : words? text = some words ↔ Ends text words :=
  ⟨ends_of_wordsWithin?, fun h => h.wordsWithin?_eq (Nat.le_refl _)⟩

theorem tokensOf_eq (h : Ends text words) :
    tokensOf text = (words.filter (2 ≤ ·.length)).map (·.map Char.toLower) := by
  rw [tokensOf, words?_eq_some_iff.mpr h, Option.getD_some]

end Cutting

section Identifiers

/-- The character belongs to no identifier. -/
def isOutside (c : Char) : Bool := !isWordChar c

theorem isWordChar_of_mem_identifiersFrom {pending text identifier : List Char}
    (known : ∀ c ∈ pending, isWordChar c) (member : identifier ∈ identifiersFrom pending text) :
    ∀ c ∈ identifier, isWordChar c := by
  fun_induction identifiersFrom pending text with
  | case1 => simp at member
  | case2 pending =>
    rw [List.mem_singleton.mp member]
    simpa using known
  | case3 pending c rest _ _ ih => exact ih (by simp) member
  | case4 pending c rest inside _ ih =>
    refine ih (fun d among => ?_) member
    rcases List.mem_cons.mp among with rfl | among
    · exact inside
    · exact known d among
  | case5 pending c rest _ _ ih => exact ih (by simp) member
  | case6 pending c rest _ _ ih =>
    rcases List.mem_cons.mp member with rfl | member
    · simpa using known
    · exact ih (by simp) member

/-- An identifier starts with no digit, so dropping digits in front leaves it as it is. -/
theorem dropWhile_reverse_of_getLast? {pending : List Char}
    (letter : ∀ c, pending.getLast? = some c → c.isDigit = false) :
    pending.reverse.dropWhile Char.isDigit = pending.reverse := by
  cases reversed : pending.reverse with
  | nil => rfl
  | cons c rest =>
    have first : pending.getLast? = some c := by
      rw [← List.head?_reverse, reversed, List.head?_cons]
    rw [List.dropWhile_cons_of_neg (by simp [letter c first])]

/-- A text is split at the characters outside of identifiers, and digits in front are dropped. -/
theorem identifiersFrom_eq {pending : List Char} (text : List Char)
    (letter : ∀ c, pending.getLast? = some c → c.isDigit = false) :
    identifiersFrom pending text =
      ((text.splitOnPPrepend isOutside pending).map (·.dropWhile Char.isDigit)).filter
        (· ≠ []) := by
  fun_induction identifiersFrom pending text with
  | case1 pending empty =>
    rw [List.isEmpty_iff.mp empty]
    rfl
  | case2 pending nonempty =>
    have read : pending.reverse ≠ [] := by simpa using nonempty
    rw [List.splitOnPPrepend_nil, List.map_singleton, dropWhile_reverse_of_getLast? letter]
    simp [read]
  | case3 pending c rest inside digit ih =>
    obtain ⟨empty, digit⟩ := Bool.and_eq_true_iff.mp digit
    rw [ih (by simp), List.isEmpty_iff.mp empty,
      List.splitOnPPrepend_cons_neg (by simp [isOutside, inside]), List.splitOnPPrepend_nil_right,
      List.splitOnPPrepend_eq_modifyHead]
    congr 1
    cases rest.splitOnP isOutside with
    | nil => rfl
    | cons run runs => simp [List.dropWhile_cons_of_pos digit]
  | case4 pending c rest inside other ih =>
    rw [List.splitOnPPrepend_cons_neg (by simp [isOutside, inside])]
    refine ih fun d last => ?_
    cases pending with
    | nil =>
      cases last
      simpa using other
    | cons e pending => exact letter d (by rwa [List.getLast?_cons_cons] at last)
  | case5 pending c rest outside empty ih =>
    rw [ih (by simp), List.isEmpty_iff.mp empty,
      List.splitOnPPrepend_cons_pos (by simp [isOutside, outside]), List.splitOnPPrepend_nil_right]
    simp
  | case6 pending c rest outside nonempty ih =>
    have read : pending.reverse ≠ [] := by simpa using nonempty
    rw [ih (by simp), List.splitOnPPrepend_cons_pos (by simp [isOutside, outside]),
      List.splitOnPPrepend_nil_right, List.map_cons, dropWhile_reverse_of_getLast? letter]
    simp [read]

/-- The identifiers of a text are its runs of word characters, without the digits in front. -/
theorem identifiers_eq (text : List Char) :
    identifiers text =
      ((text.splitOnP isOutside).map (·.dropWhile Char.isDigit)).filter (· ≠ []) := by
  rw [identifiers, identifiersFrom_eq text (by simp), List.splitOnPPrepend_nil_right]

theorem identifiers_append (before after : List Char) {c : Char} (outside : isOutside c) :
    identifiers (before ++ c :: after) = identifiers before ++ identifiers after := by
  simp only [identifiers_eq, List.splitOnP_append_cons before after outside, List.map_append,
    List.filter_append]

end Identifiers

section Text

theorem tokenize_append (before after : String) {c : Char} (outside : isOutside c) :
    tokenize (before ++ String.singleton c ++ after) = tokenize before ++ tokenize after := by
  have characters : (before ++ String.singleton c ++ after).toList =
      before.toList ++ c :: after.toList := by simp
  rw [tokenize, characters, identifiers_append _ _ outside, List.flatMap_append, List.map_append]
  rfl

/-- The identifiers of a text are its runs of letters, digits and underscores without the digits in
front. Each of them is cut to its end, into words that follow each other with nothing but
underscores around them, and those of two or more characters are its tokens, in small letters and
in their order. Any other character parts a text into two whose tokens are found on their own. -/
theorem cut_whole_and_apart :
    (∀ text : String,
      identifiers text.toList =
        ((text.toList.splitOnP isOutside).map (·.dropWhile Char.isDigit)).filter (· ≠ []) ∧
      tokenize text = ((identifiers text.toList).flatMap tokensOf).map String.ofList ∧
      ∀ identifier ∈ identifiers text.toList, ∃ words,
        Ends identifier words ∧ words? identifier = some words ∧
        Consecutive identifier words ∧ words.flatten = identifier.filter (· ≠ '_') ∧
        tokensOf identifier = (words.filter (2 ≤ ·.length)).map (·.map Char.toLower)) ∧
    ∀ (before after : String) (c : Char), c.isAlphanum = false → c ≠ '_' →
      tokenize (before ++ String.singleton c ++ after) = tokenize before ++ tokenize after := by
  refine ⟨fun text => ⟨identifiers_eq _, rfl, fun identifier member => ?_⟩, ?_⟩
  · have inside := isWordChar_of_mem_identifiersFrom (by simp) member
    obtain ⟨words, ends⟩ := (exists_ends_iff identifier).mpr inside
    exact ⟨words, ends, words?_eq_some_iff.mpr ends, ends.consecutive, ends.consecutive.flatten_eq,
      tokensOf_eq ends⟩
  · intro before after c letter other
    exact tokenize_append before after (by simp [isOutside, isWordChar, letter, other])

/-- An acronym in front of a word, an underscore and a digit, with a bracket before them. -/
theorem cut_whole_and_apart_bracketSample :
    ("HTMLParser_v2".toList ∈ identifiers "1x(HTMLParser_v2".toList ∧
      ∃ words, Ends "HTMLParser_v2".toList words ∧ words.flatten = "HTMLParserv2".toList) ∧
    '('.isAlphanum = false ∧ '(' ≠ '_' ∧
      tokenize ("1x" ++ String.singleton '(' ++ "HTMLParser_v2") =
        tokenize "1x" ++ tokenize "HTMLParser_v2" := by
  have member : "HTMLParser_v2".toList ∈ identifiers "1x(HTMLParser_v2".toList := by decide
  obtain ⟨whole, apart⟩ := cut_whole_and_apart
  obtain ⟨words, ends, _, _, kept, _⟩ := (whole _).2.2 _ member
  have other : '(' ≠ '_' := by decide
  exact ⟨⟨member, words, ends, kept⟩, rfl, other, apart _ _ '(' rfl other⟩

example : tokenize "const userName = get_user_id(HTMLParser);" =
    ["const", "user", "name", "get", "user", "id", "html", "parser"] := by decide

end Text

end Lookalike.Tokens
