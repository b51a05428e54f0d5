import Lookalike.Json.Fields
import Lookalike.Json.Printer
import Lookalike.Json.Reader
import Lookalike.Proofs.Text.Utf8
import Mathlib.Data.Option.Basic

/-!
# Reading back JSON

What the printer writes is read as the value that was written, if its strings are text and its
numerals have digits where the grammar wants them. Strings, numerals and words come first, each
with anything behind it; values follow by induction on their structure, with as many nested calls
as the printed value has characters.
-/

namespace Lookalike.Json

section Strings

/-- The unit of a string as which a character is read back. -/
def pieceOf (c : Char) : Piece :=
  if c.toNat < 0x20 ∧ c ≠ '\x08' ∧ c ≠ '\x0c' ∧ c ≠ '\n' ∧ c ≠ '\r' ∧ c ≠ '\t' then .unit c.toNat
  else .char c

theorem pieces?_escape (c : Char) (rest : Symbols) :
    pieces? ((escape c).map some ++ rest) =
      (pieces? rest).map fun (pieces, rest) => (pieceOf c :: pieces, rest) := by
  have short : c = '"' ∨ c = '\\' ∨ c = '\x08' ∨ c = '\x0c' ∨ c = '\n' ∨ c = '\r' ∨ c = '\t' ∨
      (c ≠ '"' ∧ c ≠ '\\' ∧ c ≠ '\x08' ∧ c ≠ '\x0c' ∧ c ≠ '\n' ∧ c ≠ '\r' ∧ c ≠ '\t') := by
    grind
  rcases short with rfl | rfl | rfl | rfl | rfl | rfl | rfl | ⟨quote, backslash, b, f, n, r, t⟩
  iterate 7 cases h : pieces? rest <;> simp [escape, pieces?, escaped?, pieceOf, h]
  by_cases control : c.toNat < 0x20
  · have high := Number.hexValue?_digitChar (n := c.toNat / 16) (by omega)
    have low := Number.hexValue?_digitChar (n := c.toNat % 16) (by omega)
    have zero : Number.hexValue? '0' = some 0 := by decide
    have whole : c.toNat / 16 * 16 + c.toNat % 16 = c.toNat := by omega
    cases h : pieces? rest <;>
      simp [escape, pieceOf, quote, backslash, b, f, n, r, t, control, pieces?, high, low, zero,
        whole, h]
  · have printable : 0x20 ≤ c.toNat := by omega
    cases h : pieces? rest <;>
      simp [escape, pieceOf, quote, backslash, b, f, n, r, t, control, pieces?, printable, h, guard]

theorem pieces?_flatMap_escape (text : List Char) (rest : Symbols) :
    pieces? ((text.flatMap escape).map some ++ some '"' :: rest) =
      some (text.map pieceOf, rest) := by
  induction text with
  | nil => simp [pieces?]
  | cons c text ih =>
    rw [List.flatMap_cons, List.map_append, List.append_assoc, pieces?_escape, ih]
    rfl

theorem textOf?_unit {n : Nat} (low : n < 0xD800) (rest : List Piece) :
    textOf? (.unit n :: rest) = (textOf? rest).map (Char.ofNat n :: ·) := by
  have trail : ¬(0xDC00 ≤ n ∧ n ≤ 0xDFFF) := by omega
  have lead : ¬(0xD800 ≤ n ∧ n ≤ 0xDBFF) := by omega
  rw [textOf?.eq_def]
  simp only [trail, lead, if_false]

theorem textOf?_map_pieceOf (text : List Char) : textOf? (text.map pieceOf) = some text := by
  induction text with
  | nil => rfl
  | cons c text ih =>
    simp only [List.map_cons, pieceOf]
    split
    next control =>
      rw [textOf?_unit (by omega), ih, Char.ofNat_toNat]
      rfl
    next => simp [textOf?, ih]

/-- A quoted text is read as the text, after its first quote. -/
theorem readString?_quoted (text : String) (rest : Symbols) :
    readString? ((text.toList.flatMap escape).map some ++ some '"' :: rest) =
      some (some text, rest) := by
  simp [readString?, pieces?_flatMap_escape, textOf?_map_pieceOf, String.ofList_toList]

end Strings

section Numerals

/-- A numeral with digits where the grammar wants them. -/
structure WellWritten (n : Numeral) : Prop where
  whole : n.whole ≠ [] ∧ ∀ c ∈ n.whole, c.isDigit
  leading : n.whole.length = 1 ∨ n.whole.head? ≠ some '0'
  fraction : ∀ digits, n.fraction = some digits → digits ≠ [] ∧ ∀ c ∈ digits, c.isDigit
  exponent : ∀ sign digits, n.exponent = some (sign, digits) →
    (sign = none ∨ sign = some '-') ∧ digits ≠ [] ∧ ∀ c ∈ digits, c.isDigit

/-- What stands after a value in a document. -/
def Follows (rest : Symbols) : Prop := ∃ c more, rest = some c :: more ∧ (c = ',' ∨ c = '\n')

def NoDigit (rest : Symbols) : Prop := ∀ c more, rest = some c :: more → c.isDigit = false

theorem digitsOf_append {digits : List Char} (all : ∀ c ∈ digits, c.isDigit) {rest : Symbols}
    (stop : NoDigit rest) : digitsOf (digits.map some ++ rest) = (digits, rest) := by
  induction digits with
  | nil =>
    match rest with
    | [] => rfl
    | none :: more => rfl
    | some c :: more => simp [digitsOf, stop c more rfl]
  | cons c digits ih =>
    have later := ih fun d hd => all d (List.mem_cons_of_mem c hd)
    simp [digitsOf, all c List.mem_cons_self, later]

theorem readDigits?_append {digits : List Char} (some_digit : digits ≠ [])
    (all : ∀ c ∈ digits, c.isDigit) {rest : Symbols} (stop : NoDigit rest) :
    readDigits? (digits.map some ++ rest) = some (digits, rest) := by
  rw [readDigits?, digitsOf_append all stop]
  match digits, some_digit with
  | c :: digits, _ => rfl

/-- How the fraction and the exponent are written. -/
def fractionText : Option (List Char) → List Char
  | none => []
  | some digits => '.' :: digits

def exponentText : Option (Option Char × List Char) → List Char
  | none => []
  | some (sign, digits) => 'e' :: sign.toList ++ digits

theorem numeralText_eq (n : Numeral) :
    numeralText n = (if n.negative then ['-'] else []) ++
      (n.whole ++ (fractionText n.fraction ++ exponentText n.exponent)) := by
  cases fraction : n.fraction <;> cases exponent : n.exponent <;>
    simp [numeralText, fractionText, exponentText, fraction, exponent]

theorem noDigit_of_follows {rest : Symbols} (follows : Follows rest) : NoDigit rest := by
  obtain ⟨c, more, rfl, rfl | rfl⟩ := follows
  all_goals
    intro d later same
    simp only [List.cons.injEq, Option.some.injEq] at same
    rw [← same.1]
    decide

theorem readExponent?_written {e : Option (Option Char × List Char)}
    (written : ∀ sign digits, e = some (sign, digits) →
      (sign = none ∨ sign = some '-') ∧ digits ≠ [] ∧ ∀ c ∈ digits, c.isDigit)
    {rest : Symbols} (follows : Follows rest) :
    readExponent? ((exponentText e).map some ++ rest) = some (e, rest) := by
  match e with
  | none => obtain ⟨c, more, rfl, rfl | rfl⟩ := follows <;> rfl
  | some (sign, digits) =>
    obtain ⟨signed, some_digit, all⟩ := written sign digits rfl
    have found := readDigits?_append some_digit all (noDigit_of_follows follows)
    rcases signed with rfl | rfl
    · match digits, some_digit with
      | c :: digits, _ =>
        have digit : c.isDigit := all c List.mem_cons_self
        have unsigned : readSign ((c :: digits).map some ++ rest) =
            (none, (c :: digits).map some ++ rest) := by
          have plus : c ≠ '+' := fun h => by rw [h] at digit; exact absurd digit (by decide)
          have minus : c ≠ '-' := fun h => by rw [h] at digit; exact absurd digit (by decide)
          simp [readSign, plus, minus]
        simp only [exponentText, readExponent?, Option.toList_none, List.nil_append,
          List.cons_append, List.map_cons] at unsigned found ⊢
        simp [unsigned, found]
    · simp [exponentText, readExponent?, readSign, found]

theorem noDigit_exponentText (e : Option (Option Char × List Char)) {rest : Symbols}
    (follows : Follows rest) : NoDigit ((exponentText e).map some ++ rest) := by
  match e with
  | none => simpa [exponentText] using noDigit_of_follows follows
  | some (sign, digits) =>
    intro c more same
    simp only [exponentText, List.cons_append, List.map_cons, List.cons.injEq,
      Option.some.injEq] at same
    rw [← same.1]
    decide

theorem readFraction?_written {f : Option (List Char)} {e : Option (Option Char × List Char)}
    (written : ∀ digits, f = some digits → digits ≠ [] ∧ ∀ c ∈ digits, c.isDigit)
    {rest : Symbols} (follows : Follows rest) :
    readFraction? ((fractionText f).map some ++ ((exponentText e).map some ++ rest)) =
      some (f, (exponentText e).map some ++ rest) := by
  match f with
  | none =>
    match e with
    | none => obtain ⟨c, more, rfl, rfl | rfl⟩ := follows <;> rfl
    | some (sign, digits) => rfl
  | some digits =>
    obtain ⟨some_digit, all⟩ := written digits rfl
    have found := readDigits?_append some_digit all (noDigit_exponentText e follows)
    simp [fractionText, readFraction?, found]

theorem noDigit_fractionText (f : Option (List Char)) (e : Option (Option Char × List Char))
    {rest : Symbols} (follows : Follows rest) :
    NoDigit ((fractionText f).map some ++ ((exponentText e).map some ++ rest)) := by
  match f with
  | none => simpa [fractionText] using noDigit_exponentText e follows
  | some digits =>
    intro c more same
    simp only [fractionText, List.cons_append, List.map_cons, List.cons.injEq,
      Option.some.injEq] at same
    rw [← same.1]
    decide

/-- A numeral is read back, after its sign. -/
theorem readNumeral?_written {n : Numeral} (written : WellWritten n) {rest : Symbols}
    (follows : Follows rest) :
    readNumeral? n.negative
      ((n.whole ++ (fractionText n.fraction ++ exponentText n.exponent)).map some ++ rest) =
        some (n, rest) := by
  have whole := readDigits?_append written.whole.1 written.whole.2
    (noDigit_fractionText n.fraction n.exponent follows)
  have leading : (n.whole.length = 1 || n.whole.head? ≠ some '0') = true := by
    simpa using written.leading
  simp only [List.map_append, List.append_assoc]
  simp only [readNumeral?, whole, Option.bind_eq_bind, Option.bind_some, leading, guard, if_true,
    readFraction?_written written.fraction follows, readExponent?_written written.exponent follows,
    Option.pure_def]

end Numerals

section Values

mutual

/-- Whether a value is read back as it is: its strings are text, its numerals well written. -/
def Printable : Json → Prop
  | .number n => WellWritten n
  | .string text => text.isSome
  | .array items => AllPrintable items
  | .object members => AllMembersPrintable members
  | _ => True

def AllPrintable : List Json → Prop
  | [] => True
  | item :: items => Printable item ∧ AllPrintable items

def AllMembersPrintable : List (Option String × Json) → Prop
  | [] => True
  | (key, value) :: members => key.isSome ∧ Printable value ∧ AllMembersPrintable members

end

theorem skipSpace_cons {c : Char} (dark : isSpace (some c) = false) (rest : Symbols) :
    skipSpace (some c :: rest) = some c :: rest := by simp [skipSpace, dark]

theorem skipSpace_lineBreak (level : Nat) (rest : Symbols) :
    skipSpace ((lineBreak level).map some ++ rest) = skipSpace rest := by
  have spaces (n : Nat) :
      skipSpace ((List.replicate n ' ').map some ++ rest) = skipSpace rest := by
    induction n with
    | zero => rfl
    | succ n ih => simpa [List.replicate_succ, skipSpace, isSpace] using ih
  simpa [lineBreak, skipSpace, isSpace] using spaces (2 * level)

theorem not_space_of_isDigit {c : Char} (digit : c.isDigit) :
    isSpace (some c) = false ∧ c ≠ ']' ∧ c ≠ '\x7d' := by
  have (d : Char) (none : d.isDigit = false) : c ≠ d := fun h => by simp [h, none] at digit
  simp [isSpace, this ' ' (by decide), this '\n' (by decide), this '\t' (by decide),
    this '\r' (by decide), this ']' (by decide), this '\x7d' (by decide)]

/-- A printed value starts neither with a space nor with a closing bracket. -/
theorem pretty_head {v : Json} (printable : Printable v) (level : Nat) :
    ∃ c text, pretty level v = c :: text ∧ isSpace (some c) = false ∧ c ≠ ']' ∧ c ≠ '\x7d' := by
  match v with
  | .null => exact ⟨_, _, rfl, by decide⟩
  | .bool true => exact ⟨_, _, rfl, by decide⟩
  | .bool false => exact ⟨_, _, rfl, by decide⟩
  | .string text => exact ⟨'"', _, by simp only [pretty, quoted, List.cons_append]; rfl, by decide⟩
  | .array [] => exact ⟨_, _, by simp only [pretty]; rfl, by decide⟩
  | .array (item :: items) =>
    exact ⟨'[', _, by simp only [pretty, List.cons_append]; rfl, by decide⟩
  | .object [] => exact ⟨_, _, by simp only [pretty]; rfl, by decide⟩
  | .object ((key, value) :: members) =>
    exact ⟨'\x7b', _, by simp only [pretty, List.cons_append]; rfl, by decide⟩
  | .number n =>
    simp only [Printable] at printable
    simp only [pretty, numeralText_eq]
    obtain ⟨some_digit, all⟩ := printable.whole
    obtain ⟨c, digits, whole⟩ := List.exists_cons_of_ne_nil some_digit
    rw [whole] at all ⊢
    cases n.negative with
    | true => exact ⟨'-', _, rfl, by decide⟩
    | false => exact ⟨c, _, rfl, not_space_of_isDigit (all c List.mem_cons_self)⟩

theorem readKey?_quoted (level : Nat) (key : String) (rest : Symbols) :
    readKey? ((lineBreak level ++ quoted key.toList ++ [':']).map some ++ rest) =
      some (some key, rest) := by
  have read := readString?_quoted key (some ':' :: rest)
  simp only [List.map_append, List.append_assoc, readKey?, skipSpace_lineBreak]
  simp only [quoted, List.cons_append, List.map_cons, List.map_append, List.map_nil,
    List.append_assoc, List.nil_append, skipSpace_cons (c := '"') (by decide), read]
  simp [skipSpace_cons (c := ':') (by decide)]

/-- An item or a member is followed by a comma or by the end of its line. -/
theorem follows_lineBreak (level : Nat) (rest : Symbols) :
    Follows ((lineBreak level).map some ++ rest) := ⟨'\n', _, rfl, .inr rfl⟩

theorem follows_prettyItems (items : List Json) (level : Nat) {rest : Symbols}
    (follows : Follows rest) : Follows ((prettyItems level items).map some ++ rest) := by
  cases items with
  | nil => simpa [prettyItems] using follows
  | cons item items => exact ⟨',', _, by simp only [prettyItems, List.cons_append]; rfl, .inl rfl⟩

theorem follows_prettyMembers (members : List (Option String × Json)) (level : Nat)
    {rest : Symbols} (follows : Follows rest) :
    Follows ((prettyMembers level members).map some ++ rest) := by
  cases members with
  | nil => simpa [prettyMembers] using follows
  | cons member members =>
    exact ⟨',', _, by simp only [prettyMembers, List.cons_append]; rfl, .inl rfl⟩

theorem readValue?_number {n : Numeral} (written : WellWritten n) {depth : Nat}
    {input rest : Symbols} (start : skipSpace input = (numeralText n).map some ++ rest)
    (follows : Follows rest) : readValue? (depth + 1) input = some (.number n, rest) := by
  have read := readNumeral?_written written follows
  obtain ⟨c, digits, whole⟩ := List.exists_cons_of_ne_nil written.whole.1
  have digit : c.isDigit := written.whole.2 c (by simp [whole])
  have differs (d : Char) (none : d.isDigit = false) : c ≠ d := fun h => by simp [h, none] at digit
  rw [readValue?, start, numeralText_eq]
  cases negative : n.negative with
  | true =>
    rw [negative] at read
    simp only [if_true, List.cons_append, List.nil_append, List.map_cons, read, Option.map_some]
  | false =>
    rw [negative, whole] at read
    simp only [List.cons_append, List.map_cons] at read
    simp only [whole, Bool.false_eq_true, if_false, List.nil_append, List.cons_append,
      List.map_cons]
    split
    case h_8 => simp only [read, Option.map_some]
    all_goals
      rename_i same
      simp only [List.cons.injEq, Option.some.injEq] at same
      exact absurd same.1 (differs _ (by decide))

/-- The text of an item with what follows it in its array, up to the line of the closing bracket. -/
def itemsText (level : Nat) (item : Json) (items : List Json) : List Char :=
  pretty level item ++ prettyItems level items

def membersText (level : Nat) (key : String) (value : Json)
    (members : List (Option String × Json)) :
    List Char :=
  quoted key.toList ++ ':' :: ' ' :: pretty level value ++ prettyMembers level members

/-- With so many nested calls, printed values are read back. -/
def ReadsValues (depth : Nat) : Prop :=
  ∀ (v : Json) (level : Nat) (input rest : Symbols), Printable v →
    skipSpace input = (pretty level v).map some ++ rest → Follows rest →
    (pretty level v).length < depth → readValue? depth input = some (v, rest)

def ReadsItems (depth : Nat) : Prop :=
  ∀ (item : Json) (items : List Json) (level close : Nat) (rest : Symbols),
    Printable item → AllPrintable items → (itemsText level item items).length + 2 ≤ depth →
    readItems? depth ((lineBreak level).map some ++ ((itemsText level item items).map some ++
      ((lineBreak close).map some ++ some ']' :: rest))) = some (item :: items, rest)

def ReadsMembers (depth : Nat) : Prop :=
  ∀ (key : String) (value : Json) (members : List (Option String × Json)) (level close : Nat)
    (rest : Symbols), Printable value → AllMembersPrintable members →
    (membersText level key value members).length + 2 ≤ depth →
    readMembers? depth ((lineBreak level).map some ++
      ((membersText level key value members).map some ++
      ((lineBreak close).map some ++ some '\x7d' :: rest))) =
        some ((some key, value) :: members, rest)

theorem readsValues_array {depth : Nat} (items : ReadsItems depth) {item : Json}
    {others : List Json} {level : Nat} {input rest : Symbols}
    (printable : Printable item ∧ AllPrintable others)
    (start : skipSpace input = (pretty level (.array (item :: others))).map some ++ rest)
    (enough : (pretty level (.array (item :: others))).length < depth + 1) :
    readValue? (depth + 1) input = some (.array (item :: others), rest) := by
  have ⟨c, text, head, dark, bracket, _⟩ := pretty_head printable.1 (level + 1)
  have read := items item others (level + 1) level rest printable.1 printable.2 (by
    simp only [pretty, List.length_append, List.length_cons, lineBreak] at enough
    simp only [itemsText, List.length_append]
    omega)
  simp only [pretty, List.cons_append, List.map_cons, List.map_append, List.append_assoc,
    List.map_nil, List.nil_append] at start
  simp only [itemsText, List.map_append, List.append_assoc] at read
  simp only [readValue?, start, skipSpace_lineBreak, read, Option.map_some]
  simp only [head, List.map_cons, List.cons_append, skipSpace_cons dark]
  split
  next same =>
    simp only [List.cons.injEq, Option.some.injEq] at same
    exact absurd same.1 bracket
  next => rfl

theorem readsValues_object {depth : Nat} (members : ReadsMembers depth) {key : String}
    {value : Json} {others : List (Option String × Json)} {level : Nat} {input rest : Symbols}
    (printable : Printable value ∧ AllMembersPrintable others)
    (start : skipSpace input =
      (pretty level (.object ((some key, value) :: others))).map some ++ rest)
    (enough : (pretty level (.object ((some key, value) :: others))).length < depth + 1) :
    readValue? (depth + 1) input = some (.object ((some key, value) :: others), rest) := by
  have read := members key value others (level + 1) level rest printable.1 printable.2 (by
    simp only [pretty, List.length_append, List.length_cons, lineBreak,
      Option.getD_some] at enough
    simp only [membersText, List.length_append, List.length_cons]
    omega)
  simp only [pretty, List.cons_append, List.map_cons, List.map_append, List.append_assoc,
    List.map_nil, List.nil_append, Option.getD_some] at start
  simp only [membersText, List.map_append, List.map_cons, List.append_assoc,
    List.cons_append] at read
  simp only [readValue?, start, skipSpace_lineBreak, read, Option.map_some]
  simp only [quoted, List.map_cons, List.cons_append, skipSpace_cons (c := '"') (by decide)]
  rfl

theorem readsValues_succ {depth : Nat} (items : ReadsItems depth) (members : ReadsMembers depth) :
    ReadsValues (depth + 1) := by
  intro v level input rest printable start follows enough
  match v with
  | .null => simp [readValue?, start, pretty, readWord?]
  | .bool true => simp [readValue?, start, pretty, readWord?]
  | .bool false => simp [readValue?, start, pretty, readWord?]
  | .number n =>
    simp only [Printable] at printable
    simp only [pretty] at start
    exact readValue?_number printable start follows
  | .string text =>
    simp only [Printable] at printable
    obtain ⟨text, rfl⟩ := Option.isSome_iff_exists.mp printable
    have read := readString?_quoted text rest
    simp only [pretty, quoted, Option.getD_some, List.cons_append, List.map_cons, List.map_append,
      List.map_nil, List.append_assoc, List.nil_append] at start
    simp only [readValue?, start, read, Option.map_some]
  | .array [] =>
    simp [readValue?, start, pretty, skipSpace_cons (c := ']') (by decide)]
  | .array (item :: others) =>
    simp only [Printable, AllPrintable] at printable
    exact readsValues_array items printable start enough
  | .object [] =>
    simp [readValue?, start, pretty, skipSpace_cons (c := '\x7d') (by decide)]
  | .object ((key, value) :: others) =>
    simp only [Printable, AllMembersPrintable] at printable
    obtain ⟨some_key, printable⟩ := printable
    obtain ⟨key, rfl⟩ := Option.isSome_iff_exists.mp some_key
    exact readsValues_object members printable start enough

theorem readsItems_succ {depth : Nat} (values : ReadsValues depth) (items : ReadsItems depth) :
    ReadsItems (depth + 1) := by
  intro item rest_items level close rest first others enough
  simp only [itemsText, List.length_append] at enough
  have ⟨c, text, head, dark, _, _⟩ := pretty_head first level
  have read := values item level
    ((lineBreak level).map some ++ ((itemsText level item rest_items).map some ++
      ((lineBreak close).map some ++ some ']' :: rest)))
    ((prettyItems level rest_items).map some ++ ((lineBreak close).map some ++ some ']' :: rest))
    first (by
      simp only [skipSpace_lineBreak, itemsText, List.map_append, List.append_assoc]
      simp only [head, List.map_cons, List.cons_append, skipSpace_cons dark])
    (follows_prettyItems rest_items level (follows_lineBreak close _)) (by omega)
  simp only [readItems?, read, Option.bind_eq_bind, Option.bind_some]
  cases rest_items with
  | nil =>
    simp [prettyItems, skipSpace_lineBreak, skipSpace_cons (c := ']') (by decide)]
  | cons next more =>
    simp only [AllPrintable] at others
    have later := items next more level close rest others.1 others.2 (by
      simp only [prettyItems, List.length_append, List.length_cons] at enough
      simp only [itemsText, List.length_append]
      omega)
    simp only [itemsText, List.map_append, List.append_assoc] at later
    simp only [prettyItems, List.cons_append, List.map_cons, List.map_append, List.append_assoc,
      skipSpace_cons (c := ',') (by decide), later, Option.bind_some, Option.pure_def]

/-- A member is read as its key and its value. -/
theorem read_member {depth : Nat} (values : ReadsValues depth) (level : Nat) (key : String)
    {value : Json}
    (printable : Printable value) {rest : Symbols} (follows : Follows rest)
    (enough : (pretty level value).length < depth) :
    ∃ after, readKey? ((lineBreak level).map some ++ ((quoted key.toList).map some ++
        some ':' :: some ' ' :: ((pretty level value).map some ++ rest))) = some (some key, after) ∧
      readValue? depth after = some (value, rest) := by
  have ⟨c, text, head, dark, _, _⟩ := pretty_head printable level
  have named := readKey?_quoted level key (some ' ' :: ((pretty level value).map some ++ rest))
  simp only [List.map_append, List.append_assoc, List.map_cons, List.map_nil, List.cons_append,
    List.nil_append] at named
  refine ⟨_, named, values value level _ rest printable ?_ follows enough⟩
  have space : isSpace (some ' ') = true := by decide
  simp only [head, List.map_cons, List.cons_append, skipSpace, List.dropWhile_cons, space, if_true,
    dark, Bool.false_eq_true, if_false]

theorem readsMembers_succ {depth : Nat} (values : ReadsValues depth)
    (members : ReadsMembers depth) : ReadsMembers (depth + 1) := by
  intro key value rest_members level close rest first others enough
  simp only [membersText, List.length_append, List.length_cons] at enough
  obtain ⟨after, named, read⟩ := read_member values level key first
    (follows_prettyMembers rest_members level
      (follows_lineBreak close (some '\x7d' :: rest))) (by omega)
  simp only [membersText, readMembers?, List.map_append, List.append_assoc, List.map_cons,
    List.cons_append, named, read, Option.bind_eq_bind, Option.bind_some]
  cases rest_members with
  | nil =>
    simp [prettyMembers, skipSpace_lineBreak, skipSpace_cons (c := '\x7d') (by decide)]
  | cons next more =>
    obtain ⟨next_key, next_value⟩ := next
    simp only [AllMembersPrintable] at others
    obtain ⟨next_key, rfl⟩ := Option.isSome_iff_exists.mp others.1
    have later := members next_key next_value more level close rest others.2.1 others.2.2 (by
      simp only [prettyMembers, List.length_append, List.length_cons, Option.getD_some] at enough
      simp only [membersText, List.length_append, List.length_cons]
      omega)
    simp only [membersText, List.map_append, List.append_assoc, List.map_cons,
      List.cons_append] at later
    simp only [prettyMembers, List.cons_append, List.map_cons, List.map_append, List.append_assoc,
      Option.getD_some, skipSpace_cons (c := ',') (by decide), later, Option.bind_some,
      Option.pure_def]

/-- The induction is on the number of nested calls, which reading spends one at a time. -/
theorem reads (depth : Nat) : ReadsValues depth ∧ ReadsItems depth ∧ ReadsMembers depth := by
  induction depth with
  | zero =>
    refine ⟨?_, ?_, ?_⟩
    · intro v level input rest _ _ _ enough
      omega
    · intro item items level close rest _ _ enough
      omega
    · intro key value members level close rest _ _ enough
      omega
  | succ depth ih =>
    exact ⟨readsValues_succ ih.2.1 ih.2.2, readsItems_succ ih.1 ih.2.1,
      readsMembers_succ ih.1 ih.2.2⟩

end Values

section Documents

theorem symbols_document (value : Json) :
    Utf8.symbols (document value).toUTF8.toList = (pretty 0 value).map some ++ [some '\n'] := by
  rw [Utf8.symbols_toUTF8, document, String.toList_ofList, List.map_append]
  rfl

/-- A document is read as the value that was written. -/
theorem read?_document {value : Json} (printable : Printable value) :
    read? (document value).toUTF8.toList = some value := by
  have ⟨c, text, head, dark, _, _⟩ := pretty_head printable 0
  have follows : Follows [some '\n'] := ⟨'\n', [], rfl, .inr rfl⟩
  have read := (reads (depthFor ((pretty 0 value).map some ++ [some '\n']))).1 value 0
    ((pretty 0 value).map some ++ [some '\n']) [some '\n'] printable
    (by simp only [head, List.map_cons, List.cons_append, skipSpace_cons dark]) follows
    (by simp only [depthFor, List.length_append, List.length_map]; omega)
  rw [read?, symbols_document, readSymbols?, read]
  rfl

/-- The members of a printed object are found one after the other. -/
theorem membersFrom_pretty (members : List (Option String × Json)) (key : String) (value : Json)
    (first : Printable value) (others : AllMembersPrintable members) {depth n : Nat}
    (level close : Nat) (deep : (membersText level key value members).length < depth)
    (long : members.length < n) :
    membersFrom depth n ((lineBreak level).map some ++
      ((membersText level key value members).map some ++
        ((lineBreak close).map some ++ [some '\x7d', some '\n']))) =
      ⟨(some key, value) :: members, true⟩ := by
  induction members generalizing key value n with
  | nil =>
    obtain ⟨n, rfl⟩ := Nat.exists_eq_add_one_of_ne_zero (Nat.ne_zero_of_lt long)
    simp only [membersText, List.length_append, List.length_cons] at deep
    obtain ⟨after, named, read⟩ := read_member (reads depth).1 level key first
      (follows_lineBreak close [some '\x7d', some '\n']) (by omega)
    simp only [membersText, prettyMembers, List.append_nil, List.map_append, List.map_cons,
      List.append_assoc, List.cons_append, membersFrom, named, read, skipSpace_lineBreak]
    rfl
  | cons next more ih =>
    obtain ⟨next_key, next_value⟩ := next
    obtain ⟨n, rfl⟩ := Nat.exists_eq_add_one_of_ne_zero (Nat.ne_zero_of_lt long)
    simp only [AllMembersPrintable] at others
    obtain ⟨next_key, rfl⟩ := Option.isSome_iff_exists.mp others.1
    simp only [membersText, prettyMembers, Option.getD_some, List.length_append,
      List.length_cons] at deep long
    have later := ih next_key next_value others.2.1 others.2.2 (n := n)
      (by simp only [membersText, List.length_append, List.length_cons]; omega) (by omega)
    obtain ⟨after, named, read⟩ := read_member (reads depth).1 level key first
      (follows_prettyMembers ((some next_key, next_value) :: more) level
        (follows_lineBreak close [some '\x7d', some '\n'])) (by omega)
    simp only [membersText, List.map_append, List.append_assoc, List.map_cons,
      List.cons_append] at later named read ⊢
    simp only [membersFrom, named, read]
    simp only [prettyMembers, Option.getD_some, List.map_append, List.append_assoc, List.map_cons,
      List.cons_append, skipSpace_cons (c := ',') (by decide), later]

theorem allMembersPrintable_iff (members : List (Option String × Json)) :
    AllMembersPrintable members ↔ ∀ m ∈ members, m.1.isSome ∧ Printable m.2 := by
  induction members with
  | nil => simp [AllMembersPrintable]
  | cons m members ih => simp [AllMembersPrintable, ih, and_assoc]

theorem allPrintable_iff (items : List Json) : AllPrintable items ↔ ∀ v ∈ items, Printable v := by
  induction items with
  | nil => simp [AllPrintable]
  | cons v items ih => simp [AllPrintable, ih]

theorem length_le_prettyMembers (members : List (Option String × Json)) (level : Nat) :
    members.length ≤ (prettyMembers level members).length := by
  induction members with
  | nil => simp
  | cons first more ih =>
    obtain ⟨key, value⟩ := first
    simp only [prettyMembers, List.length_append, List.length_cons]
    omega

theorem pretty_object (level : Nat) (key : String) (value : Json)
    (members : List (Option String × Json)) :
    pretty level (.object ((some key, value) :: members)) =
      '\x7b' :: (lineBreak (level + 1) ++ (membersText (level + 1) key value members ++
        (lineBreak level ++ ['\x7d']))) := by
  simp [pretty, membersText]

/-- The members of an object are read from its document, all of them. -/
theorem readMembers_document {members : List (Option String × Json)}
    (printable : AllMembersPrintable members) :
    readMembers (document (.object members)).toUTF8.toList = ⟨members, true⟩ := by
  have dark : isSpace (some '\x7b') = false := by decide
  rw [readMembers, symbols_document]
  cases members with
  | nil =>
    simp only [pretty, List.map_cons, List.map_nil, List.cons_append, List.nil_append,
      skipSpace_cons dark, skipSpace_cons (c := '\x7d') (by decide)]
    rfl
  | cons first more =>
    obtain ⟨key, value⟩ := first
    simp only [AllMembersPrintable] at printable
    obtain ⟨key, rfl⟩ := Option.isSome_iff_exists.mp printable.1
    have short := length_le_prettyMembers more 1
    generalize input : (pretty 0 (.object ((some key, value) :: more))).map some ++
      [some '\n'] = symbols
    have read : membersFrom (depthFor symbols) (depthFor symbols) _ = _ :=
      membersFrom_pretty more key value printable.2.1 printable.2.2 1 0
      (by
        simp only [← input, pretty_object, depthFor, List.length_append, List.length_map,
          List.length_cons, Nat.zero_add]
        omega)
      (by
        simp only [← input, pretty_object, membersText, depthFor, List.length_append,
          List.length_map, List.length_cons, Nat.zero_add]
        omega)
    have shape : symbols = some '\x7b' :: ((lineBreak 1).map some ++
        ((membersText 1 key value more).map some ++
          ((lineBreak 0).map some ++ [some '\x7d', some '\n']))) := by
      simp [← input, pretty_object]
    have open_quote : skipSpace ((lineBreak 1).map some ++
        ((membersText 1 key value more).map some ++
          ((lineBreak 0).map some ++ [some '\x7d', some '\n']))) =
        (membersText 1 key value more).map some ++
          ((lineBreak 0).map some ++ [some '\x7d', some '\n']) := by
      rw [skipSpace_lineBreak]
      simp [membersText, quoted, skipSpace_cons (c := '"') (by decide)]
    have start : skipSpace symbols = symbols := by rw [shape, skipSpace_cons dark]
    rw [start]
    generalize depthFor symbols = depth at read
    rw [shape]
    simp only [open_quote, read]
    simp only [membersText, quoted, List.cons_append, List.map_cons]
    rfl

end Documents

end Lookalike.Json
