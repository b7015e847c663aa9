import FileMarket.Json.Value
import Mathlib.Tactic

/-!
# Exact values

The rational number that a finite floating point value stands for, and the one that a JSON number
stands for in the form it is held in. A floating point value is a natural number exactly if its
exact value is one (`Binary64.toNat?_eq_some_iff`).
-/

set_option autoImplicit false

namespace FileMarket

namespace Binary64

/-- The rational number that a finite value stands for. -/
def exact (x : Binary64) : ℚ :=
  if x.isNegative then -(x.significand * 2 ^ x.exponent) else x.significand * 2 ^ x.exponent

/-- Only the zeros have no significand. -/
theorem significand_eq_zero_iff (x : Binary64) : x.significand = 0 ↔ x.magnitude = 0 := by
  unfold significand
  split
  · exact Iff.rfl
  · rename_i hnormal
    have hweight : 0 < exponentWeight := by decide
    have hmagnitude : x.magnitude ≠ 0 := by
      intro hzero
      rw [exponentField, hzero, Nat.zero_div] at hnormal
      exact hnormal rfl
    exact iff_of_false (by omega) hmagnitude

theorem exact_neg_of_isNegative {x : Binary64} (hnegative : x.isNegative = true)
    (hnonzero : x.significand ≠ 0) : x.exact < 0 := by
  have hpos : (0 : ℚ) < x.significand := by exact_mod_cast Nat.pos_of_ne_zero hnonzero
  rw [exact, if_pos hnegative, neg_lt_zero]
  positivity

/-- Where nothing is below zero, the sign does not matter. -/
theorem exact_of_nonneg {x : Binary64} (h : x.isNegative = false ∨ x.significand = 0) :
    x.exact = x.significand * 2 ^ x.exponent := by
  unfold exact
  rcases h with h | h
  · rw [h]
    rfl
  · simp [h]

/-- A significand with a negative exponent is a natural number if its unit divides it. -/
theorem div_pow_eq_iff (m k n : Nat) :
    (m : ℚ) / 2 ^ k = n ↔ m % 2 ^ k = 0 ∧ m / 2 ^ k = n := by
  have hunit : 0 < 2 ^ k := by positivity
  have hcast : ((2 ^ k : Nat) : ℚ) = 2 ^ k := by push_cast; rfl
  rw [← hcast, div_eq_iff (by exact_mod_cast hunit.ne')]
  norm_cast
  constructor
  · rintro rfl
    exact ⟨Nat.mul_mod_left n (2 ^ k), Nat.mul_div_cancel n hunit⟩
  · rintro ⟨hmod, rfl⟩
    exact (Nat.div_mul_cancel (Nat.dvd_of_mod_eq_zero hmod)).symm

/-- A value is a natural number exactly if it is finite and its exact value is that number. -/
theorem toNat?_eq_some_iff (x : Binary64) (n : Nat) :
    x.toNat? = some n ↔ x.isFinite = true ∧ x.exact = n := by
  unfold toNat?
  cases hfinite : x.isFinite with
  | false => simp
  | true =>
    by_cases hnegative : x.isNegative = true ∧ x.significand ≠ 0
    · -- What is below zero is no natural number.
      have hbelow := exact_neg_of_isNegative hnegative.1 hnegative.2
      have hne : x.exact ≠ n := by
        intro heq
        rw [heq] at hbelow
        exact absurd hbelow (by simp)
      simp [hnegative.1, hnegative.2, hne]
    · have hnonneg : x.isNegative = false ∨ x.significand = 0 := by
        rcases not_and_or.1 hnegative with h | h
        · exact .inl (Bool.eq_false_iff.2 h)
        · exact .inr (not_not.1 h)
      have hguard : ¬ ((!true || (x.isNegative && x.significand != 0)) = true) := by
        rcases hnonneg with h | h <;> simp [h]
      rw [if_neg hguard, exact_of_nonneg hnonneg]
      by_cases hexponent : 0 ≤ x.exponent
      · obtain ⟨k, hk⟩ := Int.eq_ofNat_of_zero_le hexponent
        rw [if_pos hexponent, hk, Int.toNat_natCast, zpow_natCast, Option.some.injEq]
        simp only [true_and]
        exact_mod_cast Iff.rfl
      · obtain ⟨k, hk⟩ := Int.exists_eq_neg_ofNat (le_of_not_ge hexponent)
        rw [if_neg hexponent, hk, neg_neg, Int.toNat_natCast, zpow_neg, zpow_natCast,
          ← div_eq_mul_inv]
        simp only [true_and]
        rw [div_pow_eq_iff]
        show (if x.significand % 2 ^ k = 0 then some (x.significand / 2 ^ k) else none) = some n ↔ _
        split
        · rename_i hmod
          simp [hmod]
        · rename_i hmod
          simp [hmod]

end Binary64

/-- The rational number that a JSON number stands for, in the form it is held in. A value that is
not finite stands for none. -/
def Number.rational? : Number → Option ℚ
  | .unsigned n => some n.toNat
  | .signed n => some n.toInt
  | .real x => if x.isFinite then some x.exact else none

/-- The form that numbers are held in: integers that are not negative are counts. -/
def Number.IsHeld : Number → Prop
  | .signed n => n < 0
  | .unsigned _ | .real _ => True

end FileMarket
