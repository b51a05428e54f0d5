import Lookalike.Proofs.Embedding.Retry
import Mathlib.Order.MinMax

/-!
# Pauses that double

The pause before another attempt is the base doubled once for each attempt, under three limits: at
most sixteen doublings are counted, the product stays within the longest duration, and no pause is
longer than thirty seconds. Main result: only the last limit ever shows. Times are whole
milliseconds, so a base that is not zero is beyond thirty seconds after sixteen doublings, and so is
the longest duration.
-/

namespace Lookalike.Http

section Limits

theorem toNat_one_shiftLeft {n : UInt32} (small : n.toNat ≤ 16) :
    ((1 : UInt32) <<< n).toNat = 2 ^ n.toNat := by
  have power : 2 ^ n.toNat ≤ 2 ^ 16 := Nat.pow_le_pow_right (by decide) small
  have places : n.toNat % 32 = n.toNat := Nat.mod_eq_of_lt (by omega)
  rw [UInt32.toNat_shiftLeft, places, UInt32.toNat_one, Nat.shiftLeft_eq, Nat.one_mul]
  exact Nat.mod_eq_of_lt (by omega)

/-- The factor of a pause, as a number. -/
theorem toNat_factor (attempt : UInt32) :
    ((1 : UInt32) <<< min attempt 16).toNat = 2 ^ min attempt.toNat 16 := by
  have exponent : (min attempt 16).toNat = min attempt.toNat 16 :=
    UInt32.toNat_min attempt 16
  rw [toNat_one_shiftLeft (by omega), exponent]

/-- Sixteen doublings take every pause to its limit. -/
theorem maxPause_le_doubled {baseMs n : Nat} (positive : 0 < baseMs) (many : 16 ≤ n) :
    maxPause ≤ baseMs * 2 ^ n :=
  calc maxPause ≤ 1 * 2 ^ 16 := by decide
    _ ≤ baseMs * 2 ^ n := Nat.mul_le_mul positive (Nat.pow_le_pow_right (by decide) many)

/-- Doublings beyond the sixteenth make no difference. -/
theorem min_doubled_clamped (baseMs n : Nat) :
    min (baseMs * 2 ^ min n 16) maxPause = min (baseMs * 2 ^ n) maxPause := by
  rcases Nat.le_total n 16 with few | many
  · rw [Nat.min_eq_left few]
  · rw [Nat.min_eq_right many]
    rcases Nat.eq_zero_or_pos baseMs with rfl | positive
    · rw [Nat.zero_mul, Nat.zero_mul]
    · rw [Nat.min_eq_right (maxPause_le_doubled positive (Nat.le_refl 16)),
        Nat.min_eq_right (maxPause_le_doubled positive many)]

/-- A product beyond the longest duration is beyond the longest pause anyway. -/
theorem min_saturated (ms : Nat) : min (min ms longestDuration) maxPause = min ms maxPause := by
  have below : maxPause ≤ longestDuration := by decide
  rw [Nat.min_assoc, Nat.min_eq_right below]

theorem backoff_eq (baseMs : Nat) (attempt : UInt32) :
    backoff baseMs attempt = min (baseMs * 2 ^ attempt.toNat) maxPause := by
  rw [backoff, min_saturated, toNat_factor, min_doubled_clamped]

end Limits

section Growth

theorem backoff_le_of_base {baseMs longer : Nat} (le : baseMs ≤ longer) (attempt : UInt32) :
    backoff baseMs attempt ≤ backoff longer attempt := by
  rw [backoff_eq, backoff_eq]
  exact min_le_min_right maxPause (Nat.mul_le_mul_right _ le)

theorem backoff_le_of_attempt {attempt later : UInt32} (le : attempt ≤ later) (baseMs : Nat) :
    backoff baseMs attempt ≤ backoff baseMs later := by
  rw [backoff_eq, backoff_eq]
  have power : 2 ^ attempt.toNat ≤ 2 ^ later.toNat :=
    Nat.pow_le_pow_right (by decide) (UInt32.le_iff_toNat_le.mp le)
  exact min_le_min_right maxPause (Nat.mul_le_mul_left _ power)

end Growth

/-- A pause is the base times two to the power of the attempt, or thirty seconds if that is less.
It does not get shorter with a longer base or a later attempt. -/
theorem doubles_up_to_thirty_seconds (baseMs : Nat) (attempt : UInt32) :
    backoff baseMs attempt = min (baseMs * 2 ^ attempt.toNat) 30000 ∧
    (∀ longer, baseMs ≤ longer → backoff baseMs attempt ≤ backoff longer attempt) ∧
    (∀ later, attempt ≤ later → backoff baseMs attempt ≤ backoff baseMs later) ∧
    backoff baseMs attempt ≤ 30000 :=
  ⟨backoff_eq baseMs attempt, fun _ le => backoff_le_of_base le attempt,
    fun _ le => backoff_le_of_attempt le baseMs, backoff_le baseMs attempt⟩

/-- The sixth doubling of a quarter of a second is below the limit; the longest base and the last
attempt are not. -/
theorem doubles_up_to_thirty_seconds_quarterSample :
    backoff 250 6 = 16000 ∧
    (250 ≤ 2 ^ 64 - 1 ∧ backoff 250 6 ≤ backoff (2 ^ 64 - 1) 6) ∧
    ((6 : UInt32) ≤ 4294967295 ∧ backoff 250 6 ≤ backoff 250 4294967295) := by
  obtain ⟨plain, longer, later, _⟩ := doubles_up_to_thirty_seconds 250 6
  have higher : 250 ≤ 2 ^ 64 - 1 := by decide
  have last : (6 : UInt32) ≤ 4294967295 := by decide
  exact ⟨plain.trans (by decide), ⟨higher, longer _ higher⟩, last, later _ last⟩

end Lookalike.Http
