import Lookalike.Proofs.Text.Utf8

/-!
# The order of UTF-8 forms

Texts are compared by code point. Their UTF-8 forms, compared byte by byte, stand in the same
order: the form of a character comes before that of a higher one whatever follows either. A step
over the bytes of a text gives back its characters, so a text begins with another exactly if its
form begins with the form of the other.
-/

namespace Lookalike.Utf8

/-- The UTF-8 form of a text. -/
def bytesOf (text : String) : List UInt8 := text.toUTF8.toList

theorem bytesOf_eq (text : String) : bytesOf text = text.toList.flatMap String.utf8EncodeChar :=
  bytes_eq_flatMap text

section Order

/-- Rows of bytes are compared at their first bytes and, where these are the same, behind them. -/
theorem cons_lt_cons {m n : Nat} {as bs : List UInt8} (hn : n < 256) (le : m ≤ n)
    (behind : m = n → as < bs) : UInt8.ofNat m :: as < UInt8.ofNat n :: bs := by
  rw [List.cons_lt_cons_iff]
  rcases Nat.lt_or_eq_of_le le with less | same
  · left
    rw [UInt8.lt_iff_toNat_lt, toNat_ofNat (Nat.lt_trans less hn), toNat_ofNat hn]
    exact less
  · exact .inr ⟨congrArg UInt8.ofNat same, behind same⟩

/-- The form of a character comes before that of a higher one, whatever follows either. -/
theorem encode_lt_encode {c d : Char} (less : c < d) (as bs : List UInt8) :
    String.utf8EncodeChar c ++ as < String.utf8EncodeChar d ++ bs := by
  have less : c.val.toNat < d.val.toNat := less
  have valid := char_valid d
  unfold String.utf8EncodeChar
  generalize c.val.toNat = v at less
  generalize d.val.toNat = w at less valid
  simp only
  -- A form with more bytes has a higher first byte. Forms of one length hold the digits of the
  -- code points to the base 64, the highest first.
  split
  next one =>
    repeat' split
    all_goals exact cons_lt_cons (by omega) (by omega) fun same => absurd same (by omega)
  next =>
    rw [if_neg (by omega : ¬w ≤ 127)]
    split
    next two =>
      split
      next =>
        refine cons_lt_cons (by omega) (by omega) fun lead => ?_
        exact cons_lt_cons (by omega) (by omega) fun same => absurd same (by omega)
      next =>
        split
        all_goals exact cons_lt_cons (by omega) (by omega) fun same => absurd same (by omega)
    next =>
      rw [if_neg (by omega : ¬w ≤ 2047)]
      split
      next three =>
        split
        next =>
          refine cons_lt_cons (by omega) (by omega) fun lead => ?_
          refine cons_lt_cons (by omega) (by omega) fun second => ?_
          exact cons_lt_cons (by omega) (by omega) fun same => absurd same (by omega)
        next =>
          exact cons_lt_cons (by omega) (by omega) fun same => absurd same (by omega)
      next =>
        rw [if_neg (by omega : ¬w ≤ 65535)]
        refine cons_lt_cons (by omega) (by omega) fun lead => ?_
        refine cons_lt_cons (by omega) (by omega) fun second => ?_
        refine cons_lt_cons (by omega) (by omega) fun third => ?_
        exact cons_lt_cons (by omega) (by omega) fun same => absurd same (by omega)

theorem flatMap_encode_lt {a b : List Char} (less : a < b) :
    a.flatMap String.utf8EncodeChar < b.flatMap String.utf8EncodeChar := by
  induction a generalizing b with
  | nil =>
    cases b with
    | nil => exact absurd less (List.lt_irrefl _)
    | cons d b =>
      obtain ⟨first, others, form⟩ :=
        List.exists_cons_of_ne_nil (@String.utf8EncodeChar_ne_nil d)
      rw [List.flatMap_cons, form]
      exact List.nil_lt_cons _ _
  | cons c a ih =>
    cases b with
    | nil => exact absurd less (List.not_lt_nil _)
    | cons d b =>
      rw [List.flatMap_cons, List.flatMap_cons]
      rcases List.cons_lt_cons_iff.mp less with lower | ⟨rfl, rest⟩
      · exact encode_lt_encode lower _ _
      · exact List.append_left_lt (ih rest)

/-- The order of texts is the order of their UTF-8 forms. -/
theorem bytesOf_lt_iff (a b : String) : bytesOf a < bytesOf b ↔ a < b := by
  have forms_lt {a b : String} (less : a < b) : bytesOf a < bytesOf b := by
    rw [bytesOf_eq, bytesOf_eq]
    exact flatMap_encode_lt (String.lt_iff.mp less)
  refine ⟨fun less => ?_, forms_lt⟩
  refine String.not_le.mp fun le => ?_
  by_cases same : b = a
  · subst same
    exact List.lt_irrefl _ less
  · have greater : b < a := String.not_le.mp fun ge => same (String.le_antisymm le ge)
    exact List.lt_asymm less (forms_lt greater)

end Order

section Beginnings

/-- Forms that begin alike are forms of texts that do. -/
theorem prefix_of_flatMap_prefix {start text : List Char}
    (begun : start.flatMap String.utf8EncodeChar <+: text.flatMap String.utf8EncodeChar) :
    start <+: text := by
  induction start generalizing text with
  | nil => exact List.nil_prefix
  | cons c start ih =>
    obtain ⟨rest, same⟩ := begun
    rw [List.flatMap_cons, List.append_assoc] at same
    have stepped := congrArg step same
    rw [step_encode] at stepped
    cases text with
    | nil => cases stepped
    | cons d text =>
      rw [List.flatMap_cons, step_encode] at stepped
      obtain ⟨rfl, tails⟩ := Step.char.inj stepped
      exact List.cons_prefix_cons.mpr ⟨rfl, ih ⟨rest, tails⟩⟩

/-- A text begins with another exactly if its UTF-8 form begins with that of the other. -/
theorem bytesOf_prefix_iff (start text : String) :
    bytesOf start <+: bytesOf text ↔ start.toList <+: text.toList := by
  rw [bytesOf_eq, bytesOf_eq]
  constructor
  · exact prefix_of_flatMap_prefix
  · rintro ⟨rest, same⟩
    exact ⟨rest.flatMap String.utf8EncodeChar, by rw [← same, List.flatMap_append]⟩

end Beginnings

end Lookalike.Utf8
