import Lookalike.Text.Utf8

/-!
# Reading back UTF-8

The bytes of a text are read as the characters of the text: a step on the bytes of one character
gives that character, whichever of the four lengths it has, so the symbols of a whole text are its
characters and no faulty sequence occurs among them.
-/

namespace Lookalike.Utf8

section Bytes

theorem toList_loop (bs : ByteArray) (i : Nat) (done : List UInt8) :
    ByteArray.toList.loop bs i done = done.reverse ++ bs.data.toList.drop i := by
  fun_induction ByteArray.toList.loop bs i done with
  | case1 i done more ih =>
    have inside : i < bs.data.toList.length := by simpa using more
    rw [ih, List.drop_eq_getElem_cons inside]
    have same : bs.get! i = bs.data.toList[i] := by simp [ByteArray.get!, more]
    simp [same]
  | case2 i done finished =>
    have outside : bs.data.toList.length ≤ i := by simpa using finished
    simp [List.drop_eq_nil_of_le outside]

theorem toList_eq_data (bs : ByteArray) : bs.toList = bs.data.toList := by
  simp [ByteArray.toList, toList_loop]

/-- The bytes of a text are those of its characters, one after the other. -/
theorem bytes_eq_flatMap (text : String) :
    text.toUTF8.toList = text.toList.flatMap String.utf8EncodeChar := by
  have encoded : text.toList.utf8Encode = text.toByteArray := String.utf8Encode_toList
  rw [toList_eq_data, String.toUTF8, ← encoded, List.utf8Encode]
  simp

end Bytes

section Step

theorem toNat_ofNat {n : Nat} (h : n < 256) : (UInt8.ofNat n).toNat = n := by
  simp [Nat.mod_eq_of_lt h]

theorem ofNat_le_ofNat {m n : Nat} (hm : m < 256) (hn : n < 256) :
    UInt8.ofNat m ≤ UInt8.ofNat n ↔ m ≤ n := by
  rw [UInt8.le_iff_toNat_le, toNat_ofNat hm, toNat_ofNat hn]

theorem isContinuation_ofNat (n : Nat) : isContinuation (UInt8.ofNat (n % 64 + 128)) := by
  have low := (ofNat_le_ofNat (m := 0x80) (n := n % 64 + 128) (by omega) (by omega)).mpr (by omega)
  have high := (ofNat_le_ofNat (m := n % 64 + 128) (n := 0xBF) (by omega) (by omega)).mpr (by omega)
  simp only [isContinuation, Bool.and_eq_true, decide_eq_true_eq]
  exact ⟨low, high⟩

/-- All bytes that are wanted are found when the second is in its range and the others continue. -/
theorem validLength_eq {first second : UInt8} {others : List UInt8} (rest : List UInt8)
    (low : (secondRange first).1 ≤ second) (high : second ≤ (secondRange first).2)
    (continued : ∀ b ∈ others, isContinuation b) :
    validLength first (others.length + 1) (second :: (others ++ rest)) = others.length + 1 := by
  have taken : (others ++ rest).take others.length = others := by simp
  have whole : others.takeWhile isContinuation = others := by
    rw [← List.append_nil others, List.takeWhile_append_of_pos continued, List.takeWhile_nil]
  simp only [validLength, low, high, decide_true, Bool.and_self, if_true, Nat.add_sub_cancel,
    taken, whole]
  omega

/-- A step over a first byte and as many others as it announces. -/
theorem step_of_bytes {first second : UInt8} (others rest : List UInt8)
    (length : lengthOf first = others.length + 2)
    (low : (secondRange first).1 ≤ second) (high : second ≤ (secondRange first).2)
    (continued : ∀ b ∈ others, isContinuation b) :
    step (first :: second :: (others ++ rest)) =
      .char (assemble (first.toNat -
        (if others.length = 0 then 0xC0 else if others.length = 1 then 0xE0 else 0xF0))
        (second :: others)) rest := by
  have valid := validLength_eq rest low high continued
  have taken : (second :: (others ++ rest)).take (others.length + 1) = second :: others := by simp
  have dropped : (second :: (others ++ rest)).drop (others.length + 1) = rest := by simp
  simp only [step, length, valid, taken, dropped, if_true, Nat.add_eq_right, Nat.reduceEqDiff]

theorem char_valid (c : Char) :
    c.val.toNat < 0xD800 ∨ 0xDFFF < c.val.toNat ∧ c.val.toNat < 0x110000 := c.valid

theorem lengthOf_ofNat {n : Nat} (h : n < 256) :
    lengthOf (UInt8.ofNat n) =
      if n < 0x80 then 1
      else if 0xC2 ≤ n ∧ n ≤ 0xDF then 2
      else if 0xE0 ≤ n ∧ n ≤ 0xEF then 3
      else if 0xF0 ≤ n ∧ n ≤ 0xF4 then 4
      else 0 := by
  simp only [lengthOf, UInt8.lt_iff_toNat_lt, UInt8.le_iff_toNat_le, toNat_ofNat h,
    Bool.and_eq_true, decide_eq_true_eq, UInt8.reduceToNat]

/-- A second byte lies in the range that its first one leaves, given as numbers. -/
theorem secondRange_ofNat {m n : Nat} (hm : m < 256) (hn : n < 256)
    (continued : 0x80 ≤ n ∧ n ≤ 0xBF)
    (overlong : (m = 0xE0 → 0xA0 ≤ n) ∧ (m = 0xF0 → 0x90 ≤ n))
    (beyond : (m = 0xED → n ≤ 0x9F) ∧ (m = 0xF4 → n ≤ 0x8F)) :
    (secondRange (UInt8.ofNat m)).1 ≤ UInt8.ofNat n ∧
      UInt8.ofNat n ≤ (secondRange (UInt8.ofNat m)).2 := by
  have same (k : Nat) (hk : k < 256) : UInt8.ofNat m = UInt8.ofNat k ↔ m = k := by
    rw [← UInt8.toNat_inj, toNat_ofNat hm, toNat_ofNat hk]
  have e0 := same 0xE0 (by decide)
  have ed := same 0xED (by decide)
  have f0 := same 0xF0 (by decide)
  have f4 := same 0xF4 (by decide)
  have le (k : Nat) (hk : k < 256) := ofNat_le_ofNat hk hn
  have ge (k : Nat) (hk : k < 256) := ofNat_le_ofNat hn hk
  have bounds := And.intro (le 0x80 (by decide)) (ge 0xBF (by decide))
  have a0 := le 0xA0 (by decide)
  have l90 := le 0x90 (by decide)
  have g9f := ge 0x9F (by decide)
  have g8f := ge 0x8F (by decide)
  simp only [UInt8.reduceOfNat] at *
  simp only [secondRange, e0, ed, f0, f4]
  split
  next first => exact ⟨a0.mpr (overlong.1 first), bounds.2.mpr continued.2⟩
  next =>
    split
    next first => exact ⟨bounds.1.mpr continued.1, g9f.mpr (beyond.1 first)⟩
    next =>
      split
      next first => exact ⟨l90.mpr (overlong.2 first), bounds.2.mpr continued.2⟩
      next =>
        split
        next first => exact ⟨bounds.1.mpr continued.1, g8f.mpr (beyond.2 first)⟩
        next => exact ⟨bounds.1.mpr continued.1, bounds.2.mpr continued.2⟩

theorem assemble_eq {c : Char} {lead : Nat} {continuations : List UInt8}
    (value : continuations.foldl (fun n b => n * 64 + (b.toNat - 0x80)) lead = c.val.toNat) :
    assemble lead continuations = c := by
  rw [assemble, value]
  exact Char.ofNat_toNat c

section Encoded

variable {c : Char} {v : Nat} (value : c.val.toNat = v) (rest : List UInt8)

include value

/-- The shortest of the four forms that the bytes of a character have, by its size. -/
theorem step_one (within : v ≤ 0x7F) : step (UInt8.ofNat v :: rest) = .char c rest := by
  have length := lengthOf_ofNat (n := v) (by omega)
  rw [if_pos (by omega)] at length
  simp only [step, length, toNat_ofNat (by omega : v < 256)]
  rw [← value]
  exact congrArg (Step.char · rest) (Char.ofNat_toNat c)

theorem step_two (outside : ¬v ≤ 0x7F) (within : v ≤ 0x7FF) :
    step (UInt8.ofNat (v / 64 % 32 + 0xC0) :: UInt8.ofNat (v % 64 + 0x80) :: rest) =
      .char c rest := by
  have length := lengthOf_ofNat (n := v / 64 % 32 + 0xC0) (by omega)
  rw [if_neg (by omega), if_pos (by omega)] at length
  have range := secondRange_ofNat (m := v / 64 % 32 + 0xC0) (n := v % 64 + 0x80)
    (by omega) (by omega) (by omega) (by omega) (by omega)
  have stepped := step_of_bytes [] rest length range.1 range.2 (by simp)
  rw [List.nil_append] at stepped
  rw [stepped, assemble_eq (c := c)]
  simp only [List.length_nil, if_true, List.foldl_cons, List.foldl_nil]
  rw [toNat_ofNat (by omega), toNat_ofNat (by omega)]
  omega

theorem step_three (outside : ¬v ≤ 0x7FF) (within : v ≤ 0xFFFF) :
    step (UInt8.ofNat (v / 4096 % 16 + 0xE0) :: UInt8.ofNat (v / 64 % 64 + 0x80) ::
      UInt8.ofNat (v % 64 + 0x80) :: rest) = .char c rest := by
  have valid := value ▸ char_valid c
  have length := lengthOf_ofNat (n := v / 4096 % 16 + 0xE0) (by omega)
  rw [if_neg (by omega), if_neg (by omega), if_pos (by omega)] at length
  have range := secondRange_ofNat (m := v / 4096 % 16 + 0xE0) (n := v / 64 % 64 + 0x80)
    (by omega) (by omega) (by omega) (by omega) (by omega)
  have stepped := step_of_bytes [UInt8.ofNat (v % 64 + 0x80)] rest length
    range.1 range.2 (by simpa using isContinuation_ofNat v)
  simp only [List.cons_append, List.nil_append] at stepped
  rw [stepped, assemble_eq (c := c)]
  simp only [List.length_cons, List.length_nil, Nat.zero_add, Nat.one_ne_zero, if_false,
    if_true, List.foldl_cons, List.foldl_nil]
  rw [toNat_ofNat (by omega), toNat_ofNat (by omega), toNat_ofNat (by omega)]
  omega

theorem step_four (outside : ¬v ≤ 0xFFFF) :
    step (UInt8.ofNat (v / 262144 % 8 + 0xF0) :: UInt8.ofNat (v / 4096 % 64 + 0x80) ::
      UInt8.ofNat (v / 64 % 64 + 0x80) :: UInt8.ofNat (v % 64 + 0x80) :: rest) =
      .char c rest := by
  have valid := value ▸ char_valid c
  have length := lengthOf_ofNat (n := v / 262144 % 8 + 0xF0) (by omega)
  rw [if_neg (by omega), if_neg (by omega), if_neg (by omega), if_pos (by omega)] at length
  have range := secondRange_ofNat (m := v / 262144 % 8 + 0xF0) (n := v / 4096 % 64 + 0x80)
    (by omega) (by omega) (by omega) (by omega) (by omega)
  have continued : ∀ b ∈ [UInt8.ofNat (v / 64 % 64 + 0x80), UInt8.ofNat (v % 64 + 0x80)],
      isContinuation b := by
    simp only [List.mem_cons, List.not_mem_nil, or_false, forall_eq_or_imp, forall_eq]
    exact ⟨isContinuation_ofNat (v / 64), isContinuation_ofNat v⟩
  have stepped := step_of_bytes _ rest length range.1 range.2 continued
  simp only [List.cons_append, List.nil_append] at stepped
  rw [stepped, assemble_eq (c := c)]
  simp only [List.length_cons, List.length_nil, Nat.reduceAdd, Nat.reduceEqDiff, if_false,
    List.foldl_cons, List.foldl_nil]
  rw [toNat_ofNat (by omega), toNat_ofNat (by omega), toNat_ofNat (by omega),
    toNat_ofNat (by omega)]
  omega

end Encoded

/-- A step on the bytes of a character gives the character. -/
theorem step_encode (c : Char) (rest : List UInt8) :
    step (String.utf8EncodeChar c ++ rest) = .char c rest := by
  unfold String.utf8EncodeChar
  simp only
  split
  next one => exact step_one rfl rest one
  next outside =>
    split
    next two => exact step_two rfl rest outside two
    next outside =>
      split
      next three => exact step_three rfl rest outside three
      next outside => exact step_four rfl rest outside

end Step

section Symbols

/-- As many steps as there are bytes are enough, since every character has one byte or more. -/
theorem symbolsWithin_encode (text : List Char) {n : Nat}
    (enough : (text.flatMap String.utf8EncodeChar).length ≤ n) :
    symbolsWithin n (text.flatMap String.utf8EncodeChar) = text.map some := by
  induction text generalizing n with
  | nil => cases n <;> simp [symbolsWithin, step]
  | cons c text ih =>
    simp only [List.flatMap_cons] at enough ⊢
    have nonempty := List.length_pos_iff.mpr (String.utf8EncodeChar_ne_nil (c := c))
    simp only [List.length_append] at enough
    cases n with
    | zero => omega
    | succ n => simp only [symbolsWithin, step_encode, List.map_cons, ih (n := n) (by omega)]

/-- The symbols of the bytes of a text are its characters. -/
theorem symbols_toUTF8 (text : String) : symbols text.toUTF8.toList = text.toList.map some := by
  rw [symbols, bytes_eq_flatMap]
  exact symbolsWithin_encode text.toList (Nat.le_refl _)

end Symbols

end Lookalike.Utf8
