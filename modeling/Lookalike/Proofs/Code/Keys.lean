import Lookalike.Number.Digits
import Lookalike.Proofs.Code.Identity
import Lookalike.Proofs.Text.Utf8

/-!
# Keys of units

The key of a unit holds its scope and its label without their lengths. A zero byte closes each, and
UTF-8 has that byte for the zero character only, so the parts of a key can be told as long as no
name holds the zero character. The ordinal then tells the units of one scope and label apart, also
where scopes are written alike or a name is spelled as the label of those that have none.
-/

namespace Lookalike

open Number (longBound)

/-- The text does not hold the zero character. -/
def Text.ZeroFree (text : String) : Prop := '\x00' ∉ text.toList

instance (text : String) : Decidable (Text.ZeroFree text) :=
  inferInstanceAs (Decidable ('\x00' ∉ text.toList))

open Text (ZeroFree)

section ZeroByte

/-- Only the zero character has a zero byte. -/
theorem zero_not_mem_utf8EncodeChar {c : Char} (other : c ≠ '\x00') :
    0 ∉ String.utf8EncodeChar c := by
  have positive : c.val.toNat ≠ 0 := fun zero => other (Char.ext (UInt32.toNat_inj.mp zero))
  have zero_iff {n : Nat} (small : n < 256) : 0 = UInt8.ofNat n ↔ n = 0 := by
    rw [← UInt8.toNat_inj, Utf8.toNat_ofNat small, UInt8.toNat_zero, eq_comm]
  simp only [String.utf8EncodeChar]
  repeat' split
  all_goals simp only [List.mem_cons, List.not_mem_nil, or_false]
  · rw [zero_iff (by omega)]
    exact positive
  · rw [zero_iff (by omega), zero_iff (by omega)]
    omega
  · rw [zero_iff (by omega), zero_iff (by omega), zero_iff (by omega)]
    omega
  · rw [zero_iff (by omega), zero_iff (by omega), zero_iff (by omega), zero_iff (by omega)]
    omega

theorem zero_not_mem_bytes {text : String} (free : ZeroFree text) : 0 ∉ text.toUTF8.toList := by
  rw [Utf8.bytes_eq_flatMap, List.mem_flatMap]
  rintro ⟨c, member, zero⟩
  refine zero_not_mem_utf8EncodeChar (fun same => ?_) zero
  exact free (same ▸ member)

/-- The first zero byte splits a row of bytes in one way. -/
theorem split_at_first_zero {p q d e : List UInt8} (hp : 0 ∉ p) (hq : 0 ∉ q)
    (same : p ++ 0 :: d = q ++ 0 :: e) : p = q ∧ d = e := by
  have head {s : List UInt8} (rest : List UInt8) (free : 0 ∉ s) :
      (s ++ 0 :: rest).takeWhile (· ≠ 0) = s := by
    have passed : ∀ b ∈ s, decide (b ≠ 0) = true := by
      intro b member
      exact decide_eq_true fun zero => free (zero ▸ member)
    rw [List.takeWhile_append_of_pos passed]
    simp
  have first : p = q := by
    have heads := congrArg (List.takeWhile (· ≠ 0)) same
    rwa [head d hp, head e hq] at heads
  subst first
  have tails := List.append_cancel_left same
  exact ⟨rfl, (List.cons.inj tails).2⟩

theorem bytes_injective {text text' : String} (same : text.toUTF8.toList = text'.toUTF8.toList) :
    text = text' := by
  have characters := congrArg Utf8.symbols same
  rw [Utf8.symbols_toUTF8, Utf8.symbols_toUTF8] at characters
  exact String.toList_injective ((List.map_inj_right fun _ _ => Option.some.inj).mp characters)

theorem zeroFree_intercalate {between : String} {parts : List String} (free : ZeroFree between)
    (all_free : ∀ part ∈ parts, ZeroFree part) : ZeroFree (String.intercalate between parts) := by
  rw [ZeroFree, String.toList_intercalate]
  induction parts with
  | nil => simp
  | cons part parts ih =>
    have first : ZeroFree part := all_free part List.mem_cons_self
    have others := ih fun other member => all_free other (List.mem_cons_of_mem _ member)
    cases parts with
    | nil => simpa [ZeroFree] using first
    | cons next parts =>
      simp only [List.map_cons, List.intercalate_cons_cons, List.mem_append, not_or] at others ⊢
      exact ⟨⟨first, free⟩, others⟩

end ZeroByte

namespace Chunk

/-- The bytes of an ordinal, lowest first. -/
def ordinalBytes (n : UInt64) : List UInt8 :=
  [n.toUInt8, (n >>> 8).toUInt8, (n >>> 16).toUInt8, (n >>> 24).toUInt8, (n >>> 32).toUInt8,
    (n >>> 40).toUInt8, (n >>> 48).toUInt8, (n >>> 56).toUInt8]

theorem ordinalBytes_injective : Function.Injective ordinalBytes := by
  intro m n same
  simp only [ordinalBytes, List.cons.injEq, and_true, ← UInt8.toNat_inj, UInt64.toNat_toUInt8,
    UInt64.toNat_shiftRight, UInt64.reduceToNat, Nat.shiftRight_eq_div_pow, Nat.reduceMod,
    Nat.reducePow] at same
  have bound_m := m.toNat_lt
  have bound_n := n.toNat_lt
  apply UInt64.toNat_inj.mp
  omega

/-- A key tells the scope, the label and the ordinal that it is written from. -/
theorem identityKey_inj {scope scope' label label' : String} {ordinal ordinal' : UInt64}
    (scope_free : ZeroFree scope) (scope_free' : ZeroFree scope')
    (label_free : ZeroFree label) (label_free' : ZeroFree label')
    (same : identityKey scope label ordinal = identityKey scope' label' ordinal') :
    scope = scope' ∧ label = label' ∧ ordinal = ordinal' := by
  simp only [identityKey, List.append_assoc, List.cons_append] at same
  obtain ⟨scopes, after_scope⟩ := split_at_first_zero (zero_not_mem_bytes scope_free)
    (zero_not_mem_bytes scope_free') same
  obtain ⟨labels, after_label⟩ := split_at_first_zero (zero_not_mem_bytes label_free)
    (zero_not_mem_bytes label_free') after_scope
  exact ⟨bytes_injective scopes, bytes_injective labels,
    ordinalBytes_injective after_label⟩

/-- The hexadecimal digits that stand for a key in an identity. -/
def digits (key : List UInt8) : List Char := (Blake3.hexOf (Blake3.digest key)).take 16

/-- The identity that a key has in a file. -/
def idFrom (filePath : String) (key : List UInt8) : String :=
  idStart filePath ++ String.ofList (digits key)

theorem digits_of_idFrom {filePath : String} {key key' : List UInt8}
    (same : idFrom filePath key = idFrom filePath key') : digits key = digits key' := by
  have texts := congrArg String.toList same
  simpa [idFrom] using texts

end Chunk

namespace CodeUnit

/-- Neither the names of the scopes around the unit nor its own hold the zero character. -/
def Placed.ZeroFree (p : Placed) : Prop :=
  (∀ name ∈ p.scopes, Text.ZeroFree name) ∧ ∀ name ∈ p.unit.name, Text.ZeroFree name

instance (p : Placed) : Decidable p.ZeroFree :=
  inferInstanceAs (Decidable (_ ∧ _))

/-- The key of a unit. -/
def Placed.identityKey (p : Placed) (ordinal : Nat) : List UInt8 :=
  Chunk.identityKey p.scope p.unit.label (UInt64.ofNat ordinal)

/-- The keys of the chunks of a source file, in source order. -/
def keysOf (lang : Language) (limits : ChunkLimits) (path source : String) (root : SyntaxTree) :
    List (List UInt8) :=
  ((withOrdinals [] (units lang source root)).filter fun (p, ordinal) =>
    (chunk? lang limits path source p ordinal).isSome).map fun (p, ordinal) => p.identityKey ordinal

section Ordinals

variable {p q : Placed} {ps : List Placed} {earlier : List (String × String)} {m n : Nat}

theorem mem_of_mem_withOrdinals (member : (p, n) ∈ withOrdinals earlier ps) : p ∈ ps := by
  induction ps generalizing earlier with
  | nil => cases member
  | cons q ps ih =>
    rcases List.mem_cons.mp member with here | later
    · cases here
      exact List.mem_cons_self
    · exact List.mem_cons_of_mem q (ih later)

/-- An ordinal counts all earlier units of its key, and no unit that is not earlier. -/
theorem ordinal_bounds (member : (p, n) ∈ withOrdinals earlier ps) :
    earlier.count p.key ≤ n ∧ n < earlier.length + ps.length := by
  induction ps generalizing earlier with
  | nil => cases member
  | cons q ps ih =>
    rw [List.length_cons]
    rcases List.mem_cons.mp member with here | later
    · cases here
      have counted := List.count_le_length (a := p.key) (l := earlier)
      omega
    · obtain ⟨low, high⟩ := ih later
      have kept := List.count_le_count_cons (a := p.key) (b := q.key) (l := earlier)
      rw [List.length_cons] at high
      omega

/-- No two units of a walk have both the key and the ordinal of each other. -/
theorem nodup_withOrdinals (earlier : List (String × String)) (ps : List Placed) :
    ((withOrdinals earlier ps).map fun (p, ordinal) => (p.key, ordinal)).Nodup := by
  induction ps generalizing earlier with
  | nil => exact List.nodup_nil
  | cons p ps ih =>
    refine List.nodup_cons.mpr ⟨fun again => ?_, ih _⟩
    obtain ⟨⟨q, n⟩, later, same⟩ := List.mem_map.mp again
    obtain ⟨same_key, same_ordinal⟩ := Prod.mk.inj same
    -- A later unit of this key counts this one too.
    have counted := (ordinal_bounds later).1
    rw [same_key, List.count_cons_self] at counted
    omega

end Ordinals

section Keys

variable {lang : Language} {limits : ChunkLimits} {path source : String} {root : SyntaxTree}

theorem Placed.ZeroFree.scope {p : Placed} (free : p.ZeroFree) : Text.ZeroFree p.scope :=
  zeroFree_intercalate (by decide) free.1

theorem Placed.ZeroFree.label {p : Placed} (free : p.ZeroFree) : Text.ZeroFree p.unit.label := by
  rw [CodeUnit.label]
  cases name : p.unit.name with
  | none => decide
  | some text => exact free.2 text name

theorem toNat_ordinal {ordinal : Nat} (small : ordinal < longBound) :
    (UInt64.ofNat ordinal).toNat = ordinal := by
  rw [UInt64.toNat_ofNat']
  exact Nat.mod_eq_of_lt small

/-- Two units are counted alike if their keys are written alike. -/
theorem counted_alike {p q : Placed} {m n : Nat} (free_p : p.ZeroFree) (free_q : q.ZeroFree)
    (small_m : m < longBound) (small_n : n < longBound)
    (same : p.identityKey m = q.identityKey n) : (p.key, m) = (q.key, n) := by
  obtain ⟨scopes, labels, ordinals⟩ :=
    Chunk.identityKey_inj free_p.scope free_q.scope free_p.label free_q.label same
  have counts := congrArg UInt64.toNat ordinals
  rw [toNat_ordinal small_m, toNat_ordinal small_n] at counts
  rw [Placed.key, Placed.key, scopes, labels, counts]

/-- The units of a file have different keys, those that are too small for a chunk included. -/
theorem nodup_identityKeys {ps : List Placed} (free : ∀ p ∈ ps, p.ZeroFree)
    (counted : ps.length ≤ longBound) :
    ((withOrdinals [] ps).map fun (p, ordinal) => p.identityKey ordinal).Nodup := by
  have small {p : Placed} {n : Nat} (member : (p, n) ∈ withOrdinals [] ps) : n < longBound := by
    have bound := (ordinal_bounds member).2
    rw [List.length_nil] at bound
    omega
  have apart := List.pairwise_map.mp (nodup_withOrdinals [] ps)
  refine List.pairwise_map.mpr (apart.imp_of_mem fun {a b} first second different same => ?_)
  exact different (counted_alike (free _ (mem_of_mem_withOrdinals first))
    (free _ (mem_of_mem_withOrdinals second)) (small first) (small second) same)

theorem nodup_keysOf (free : ∀ p ∈ units lang source root, p.ZeroFree)
    (counted : (units lang source root).length ≤ longBound) :
    (keysOf lang limits path source root).Nodup := by
  exact (List.filter_sublist.map _).nodup (nodup_identityKeys free counted)

theorem id_of_chunk? {p : Placed} {n : Nat} {c : Chunk}
    (cut : chunk? lang limits path source p n = some c) :
    c.id = Chunk.idFrom path (p.identityKey n) := (isCut_of_chunk? cut).id

/-- The identities of a file are written from its keys. -/
theorem ids_eq_keys : (chunksOf lang limits path source root).map (·.id) =
    (keysOf lang limits path source root).map (Chunk.idFrom path) := by
  rw [chunksOf, keysOf]
  induction withOrdinals [] (units lang source root) with
  | nil => rfl
  | cons counted rest ih =>
    obtain ⟨p, n⟩ := counted
    cases cut : chunk? lang limits path source p n with
    | none => simpa [cut] using ih
    | some c => simpa [cut, id_of_chunk? cut] using ih

/-- The identities of a file are written from the keys of its chunks. While eight bytes can count
the units, no two keys are the same, so neither are two identities if their digits tell the keys
apart. No identity is one of a file with another path, whatever is cut from that. -/
theorem identities_apart (lang : Language) (limits : ChunkLimits) (path source : String)
    (root : SyntaxTree) :
    (chunksOf lang limits path source root).map (·.id) =
      (keysOf lang limits path source root).map (Chunk.idFrom path) ∧
    ((∀ p ∈ units lang source root, p.ZeroFree) →
      (units lang source root).length ≤ longBound →
      (keysOf lang limits path source root).Nodup ∧
      ((∀ k ∈ keysOf lang limits path source root, ∀ k' ∈ keysOf lang limits path source root,
          Chunk.digits k = Chunk.digits k' → k = k') →
        ((chunksOf lang limits path source root).map (·.id)).Nodup)) ∧
    ∀ path' ≠ path, ∀ lang' limits' source' root',
      ∀ c ∈ chunksOf lang limits path source root,
      ∀ c' ∈ chunksOf lang' limits' path' source' root', c.id ≠ c'.id := by
  refine ⟨ids_eq_keys, fun free counted => ?_, ?_⟩
  · have keys_apart : (keysOf lang limits path source root).Nodup := nodup_keysOf free counted
    refine ⟨keys_apart, fun told => ?_⟩
    rw [ids_eq_keys]
    refine List.pairwise_map.mpr
      (keys_apart.imp_of_mem fun {k k'} first second different same => ?_)
    exact different (told k first k' second (Chunk.digits_of_idFrom same))
  · intro path' elsewhere lang' limits' source' root' c here c' there same
    have own := (Chunk.cutFrom_of_mem_chunksOf here).identity
    have other := (Chunk.cutFrom_of_mem_chunksOf there).identity
    exact elsewhere (Chunk.path_unique other (same ▸ own))

section Sample

/-- A function that is bound to the name of the nameless, and one without a name. -/
def namesakeSource : String := "(\x7b\"<anonymous>\": () => 0, b: [() => 1]\x7d)"

def namesakeTree : SyntaxTree :=
  .node "program" true none 0 40 [
    .node "expression_statement" true none 0 40 [
      .node "parenthesized_expression" true none 0 40 [
        .node "object" true none 1 39 [
          .node "pair" true none 2 24 [
            .node "string" true (some .key) 2 15 [],
            .node "arrow_function" true (some .value) 17 24 []],
          .node "pair" true none 26 38 [
            .node "property_identifier" true (some .key) 26 27 [],
            .node "array" true (some .value) 29 38 [
              .node "arrow_function" true none 30 37 []]]]]]]

theorem identities_apart_namesakeSample :
    (units .javascript namesakeSource namesakeTree).map (·.unit.name) =
      [some "<anonymous>", none] ∧
    (chunksOf .javascript { minSize := 0 } "x.js" namesakeSource namesakeTree).length = 2 ∧
    ((chunksOf .javascript { minSize := 0 } "x.js" namesakeSource namesakeTree).map (·.id)).Nodup :=
  ⟨by decide +kernel, by decide +kernel,
    ((identities_apart .javascript { minSize := 0 } "x.js" namesakeSource namesakeTree).2.1
      (by decide +kernel) (by decide +kernel)).2 (by decide +kernel)⟩

end Sample

end Keys

end CodeUnit

end Lookalike
