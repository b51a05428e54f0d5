import Lookalike.Index.VectorTable
import Mathlib

/-!
# Single precision numbers

What the ordering of similarities rests on: products do not depend on the order of their factors,
so neither does the similarity of two vectors, and the comparison of numbers is transitive. A value
that is no number is comparable with none. Ranks are a total order instead, in which bits with one
rank are the same. Whether a number is finite is told by the bits of its exponent.
-/

namespace Lookalike

open Number (twoTo)
open Float.Model (Format UnpackedFloat)
open Float.Model.UnpackedFloat (Sign)

namespace Number

section Products

theorem sign_mul_comm (a b : Sign) : a * b = b * a := by cases a <;> cases b <;> rfl

theorem unpacked_mul_comm (format : Format) (x y : UnpackedFloat) :
    x.mul format y = y.mul format x := by
  cases x <;> cases y <;> simp only [UnpackedFloat.mul, sign_mul_comm, Nat.mul_comm, Int.add_comm]

theorem single_mul_comm (a b : Float32) : a * b = b * a := by
  show Float32.ofModel (Float32.Model.pack _) = Float32.ofModel (Float32.Model.pack _)
  rw [unpacked_mul_comm]

end Products

section Order

/-- Where a number stands: by its sign, then by its exponent, then by its mantissa. -/
def place : UnpackedFloat → ℤ ×ₗ ℤ ×ₗ ℤ
  | .infinity .negative => toLex (-2, toLex (0, 0))
  | .finite .negative mantissa exponent _ => toLex (-1, toLex (-exponent, -mantissa))
  | .finite .positive mantissa exponent _ => toLex (1, toLex (exponent, mantissa))
  | .infinity .positive => toLex (2, toLex (0, 0))
  | .zero _ | .notANumber => toLex (0, toLex (0, 0))

theorem isLE_compare_iff (e f : Int) (m n : Nat) :
    ((compare e f).then (compare m n)).isLE ↔ e < f ∨ e = f ∧ m ≤ n := by
  rw [Ordering.isLE_then_iff_or, Int.compare_eq_lt, Int.compare_eq_eq, Nat.isLE_compare]

theorem isGE_compare_iff (e f : Int) (m n : Nat) :
    ((compare e f).then (compare m n)).isGE ↔ f < e ∨ e = f ∧ n ≤ m := by
  rcases lt_trichotomy e f with h | rfl | h
  · simp [Int.compare_eq_lt.mpr h, h.ne, h.le]
  · simp [Nat.isGE_compare]
  · simp [Int.compare_eq_gt.mpr h, h]

/-- Numbers compare as their places do. -/
theorem unpacked_le_iff (x y : UnpackedFloat) :
    x.le y ↔ x ≠ .notANumber ∧ y ≠ .notANumber ∧ place x ≤ place y := by
  rcases x with (_ | _) | _ | (_ | _) | ⟨_ | _, m, e, _⟩ <;>
    rcases y with (_ | _) | _ | (_ | _) | ⟨_ | _, n, f, _⟩ <;>
    simp [UnpackedFloat.le, UnpackedFloat.compare, place, Prod.Lex.toLex_le_toLex, isLE_compare_iff,
      isGE_compare_iff]
  -- Two infinities are compared by their signs.
  all_goals rfl

theorem single_le_iff (a b : Float32) : a ≤ b ↔ a.toModel.unpack.le b.toModel.unpack := by
  show decide (a.toModel ≤ b.toModel) = true ↔ _
  rw [decide_eq_true_iff]
  rfl

theorem single_le_trans {a b c : Float32} (h : a ≤ b) (k : b ≤ c) : a ≤ c := by
  rw [single_le_iff, unpacked_le_iff] at h k ⊢
  exact ⟨h.1, k.2.1, h.2.2.trans k.2.2⟩

end Order

section Finiteness

/-- The bits of the exponent, as the hardware model takes them out. -/
def exponentField (x : Float32) : BitVec 8 :=
  @UnpackedFloat.unpackExponent Format.binary32 x.toBits.toBitVec

theorem toNat_exponentField (x : Float32) :
    (exponentField x).toNat = x.toBits.toNat / twoTo 23 % twoTo 8 := by
  show _ = x.toBits.toNat / 2 ^ 23 % 2 ^ 8
  simp [exponentField, UnpackedFloat.unpackExponent, Nat.shiftRight_eq_div_pow]

theorem isFinite_iff_exponent (x : Float32) :
    x.isFinite ↔ x.toBits.toNat / twoTo 23 % twoTo 8 ≠ 255 := by
  show (UnpackedFloat.unpack Format.binary32 x.toBits.toBitVec).isFinite ↔ _
  rw [← toNat_exponentField]
  delta UnpackedFloat.unpack
  dsimp only
  split
  next top =>
    have top : exponentField x = -1#8 := top
    rw [top]
    split <;> exact iff_of_false Bool.false_ne_true (not_not.mpr rfl)
  next below =>
    have apart : (exponentField x).toNat ≠ 255 := fun top => below (BitVec.toNat_inj.mp top)
    refine iff_of_true ?_ apart
    split
    next => split <;> rfl
    next => rfl

end Finiteness

end Number

/-- The similarity of two vectors does not depend on which comes first. -/
theorem cosineSimilarity_comm (a b : Embedding) : cosineSimilarity a b = cosineSimilarity b a := by
  have dot : List.zipWith (· * ·) a.toList b.toList = List.zipWith (· * ·) b.toList a.toList :=
    List.zipWith_comm_of_comm Number.single_mul_comm
  have lengths : a.size ≠ b.size ↔ b.size ≠ a.size := ne_comm
  simp only [cosineSimilarity, dot, Number.single_mul_comm (norm a), lengths,
    Bool.or_comm (norm a == 0)]

/-- Bits with one rank are the same bits. -/
theorem totalRank_inj {a b : UInt32} (h : totalRank a = totalRank b) : a = b := by
  have power : (twoTo 31 : Nat) = 2147483648 := rfl
  have a_bound := a.toNat_lt
  have b_bound := b.toNat_lt
  simp only [totalRank, power] at h
  have bits : a.toNat = b.toNat := by split at h <;> split at h <;> omega
  exact UInt32.toNat_inj.mp bits

theorem scoreRank_inj {x y : Float32} (h : scoreRank x = scoreRank y) : x = y :=
  Float32.toBits_inj.mp (totalRank_inj h)

/-- Where higher ranks come first, and equal ones in the order of keys that are all different, the
sorted list tells each item from the later ones. -/
theorem pairwise_sorted_of_ranks {α : Type u} {κ : Type v} [LinearOrder κ] (rank : α → Int)
    (key : α → κ) {before : α → α → Bool}
    (shape : ∀ a b, before a b ↔ rank b < rank a ∨ rank a = rank b ∧ key a ≤ key b)
    {xs : List α} (distinct : ((sorted before xs).map key).Nodup) :
    (sorted before xs).Pairwise fun a b => rank b < rank a ∨ rank a = rank b ∧ key a < key b := by
  have total (a b : α) : before a b ∨ before b a := by
    have keys := le_total (key a) (key b)
    rw [shape, shape]
    grind
  have transitive (a b c : α) (ab : before a b) (bc : before b c) : before a c := by
    have keys : key a ≤ key b → key b ≤ key c → key a ≤ key c := le_trans
    rw [shape] at ab bc ⊢
    grind
  have in_order := pairwise_sorted before total transitive xs
  refine (in_order.and (List.pairwise_map.mp distinct)).imp fun {a b} both => ?_
  obtain ⟨first, different⟩ := both
  exact ((shape a b).mp first).imp id fun ⟨same, lower⟩ => ⟨same, lt_of_le_of_ne lower different⟩

end Lookalike
