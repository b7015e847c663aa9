import FileMarket.Decimal.Fixed
import FileMarket.Proofs.Decimal.Value

/-!
# The nearest integer

Every rational number has at most one nearest integer, if of two neighbours that are equally near
the even one counts (`IsNearest.unique`). Rounding a quotient gives this integer
(`isNearest_roundQuotient`), and so a finite floating point value is rounded to the nearest unit of
a decimal place, whatever its sign and its exponent (`Binary64.isNearest_units`).
-/

set_option autoImplicit false

namespace FileMarket

/-- The integer nearest to a number, of two the even one. -/
structure IsNearest (q : ℚ) (n : ℤ) : Prop where
  near : |q - n| ≤ 1 / 2
  even : |q - n| = 1 / 2 → Even n

namespace IsNearest

variable {q : ℚ} {m n : ℤ}

theorem unique (hm : IsNearest q m) (hn : IsNearest q n) : m = n := by
  by_contra hne
  have hm' := hm.near
  have hn' := hn.near
  have hapart : (1 : ℚ) ≤ |(m : ℚ) - n| := by
    exact_mod_cast Int.one_le_abs (sub_ne_zero.2 hne)
  have htriangle : |(m : ℚ) - n| ≤ |q - m| + |q - n| := by
    rw [abs_sub_comm q m]
    exact abs_sub_le _ _ _
  -- Two neighbours that are equally near are one apart, and are not both even.
  have hone : |m - n| = 1 := by
    have hle : |(m : ℚ) - n| = 1 := by linarith
    exact_mod_cast hle
  have heven := (hm.even (by linarith)).sub (hn.even (by linarith))
  rw [← even_abs, hone] at heven
  exact absurd heven (by decide)

theorem neg (h : IsNearest q n) : IsNearest (-q) (-n) := by
  have hsame : |-q - ((-n : ℤ) : ℚ)| = |q - n| := by
    rw [Int.cast_neg, ← neg_sub', abs_neg]
  exact ⟨hsame ▸ h.near, fun htie => (h.even (hsame ▸ htie)).neg⟩

/-- Less than half above an integer. -/
theorem of_lt {f : ℚ} (hnonneg : 0 ≤ f) (hlt : f < 1 / 2) : IsNearest (n + f) n := by
  have heq : |n + f - n| = f := by rw [add_sub_cancel_left, abs_of_nonneg hnonneg]
  exact ⟨heq.trans_le hlt.le, fun htie => absurd (heq.symm.trans htie) hlt.ne⟩

/-- More than half above an integer. -/
theorem of_gt {f : ℚ} (hlt : 1 / 2 < f) (hle : f ≤ 1) : IsNearest (n + f) (n + 1) := by
  have heq : |n + f - ((n + 1 : ℤ) : ℚ)| = 1 - f := by
    rw [abs_sub_comm, abs_of_nonneg (by push_cast; linarith)]
    push_cast
    ring
  exact ⟨by linarith, fun htie => by linarith⟩

/-- Half above an integer, the even one of its neighbours is nearest. -/
theorem of_half : IsNearest (n + 1 / 2) (if Even n then n else n + 1) := by
  split
  · rename_i heven
    exact ⟨by rw [add_sub_cancel_left]; norm_num, fun _ => heven⟩
  · rename_i hodd
    refine ⟨?_, fun _ => (Int.not_even_iff_odd.1 hodd).add_one⟩
    rw [show (n : ℚ) + 1 / 2 - ((n + 1 : ℤ) : ℚ) = -(1 / 2) by push_cast; ring]
    norm_num

end IsNearest

/-- A quotient is its whole part and what the remainder adds to it. -/
theorem natCast_div_eq_add (a : Nat) {b : Nat} (hb : 0 < b) :
    (a : ℚ) / b = (a / b : ℕ) + (a % b : ℕ) / b := by
  rw [add_div_eq_mul_add_div _ _ (by exact_mod_cast hb.ne')]
  congr 1
  exact_mod_cast (Nat.div_add_mod' a b).symm

/-- Rounding a quotient gives the nearest integer. -/
theorem isNearest_roundQuotient (a : Nat) {b : Nat} (hb : 0 < b) :
    IsNearest ((a : ℚ) / b) (roundQuotient a b) := by
  have hpos : (0 : ℚ) < b := by exact_mod_cast hb
  rw [natCast_div_eq_add a hb]
  unfold roundQuotient
  dsimp only
  split
  · rename_i hless
    exact .of_lt (by positivity) (by rw [div_lt_div_iff₀ hpos two_pos]; norm_cast; omega)
  · split
    · rename_i hmore
      have hrest := Nat.mod_lt a hb
      push_cast
      refine .of_gt (n := (a / b : ℕ)) ?_ ?_
      · rw [div_lt_div_iff₀ two_pos hpos]; norm_cast; omega
      · rw [div_le_one hpos]; norm_cast; omega
    · have htie : ((a % b : ℕ) : ℚ) / b = 1 / 2 := by
        rw [div_eq_div_iff hpos.ne' two_ne_zero]; norm_cast; omega
      rw [htie]
      have hhalf := IsNearest.of_half (n := (a / b : ℕ))
      simpa only [Int.even_coe_nat, Nat.even_iff, Int.cast_natCast, apply_ite, Nat.cast_add,
        Nat.cast_one] using hhalf

namespace Binary64

/-- The value in units of `10 ^ -places`, rounded to the nearest, ties to even. -/
def units (places : Nat) (x : Binary64) : ℤ :=
  if x.isNegative then -x.rounded places else x.rounded places

theorem natAbs_units (places : Nat) (x : Binary64) :
    (x.units places).natAbs = x.rounded places := by
  unfold units
  split
  · rw [Int.natAbs_neg, Int.natAbs_natCast]
  · exact Int.natAbs_natCast _

/-- What is rounded to zero is not below zero, whatever its sign. -/
theorem units_neg_iff (places : Nat) (x : Binary64) :
    x.units places < 0 ↔ x.isNegative = true ∧ x.rounded places ≠ 0 := by
  unfold units
  split
  · rename_i hsign
    rw [hsign, eq_self_iff_true, true_and]
    omega
  · rename_i hsign
    exact iff_of_false (by omega) fun h => hsign h.1

/-- A value is rounded to the nearest unit. -/
theorem isNearest_units (places : Nat) (x : Binary64) :
    IsNearest (x.exact * 10 ^ places) (x.units places) := by
  -- The unsigned value is the quotient that is rounded: the power of two stands above or below.
  have hpower : (2 : ℚ) ^ x.exponent = 2 ^ x.exponent.toNat / 2 ^ (-x.exponent).toNat := by
    rw [← zpow_natCast, ← zpow_natCast, ← zpow_sub₀ two_ne_zero]
    congr 1
    omega
  have hvalue : (x.significand * 2 ^ x.exponent * 10 ^ places : ℚ) =
      (x.significand * Nat.pow 2 x.exponent.toNat * Nat.pow 10 places : ℕ) /
        (Nat.pow 2 (-x.exponent).toNat : ℕ) := by
    simp only [Nat.pow_eq]
    push_cast
    rw [hpower]
    ring
  have hrounded : IsNearest (x.significand * 2 ^ x.exponent * 10 ^ places) (x.rounded places) := by
    rw [hvalue]
    exact isNearest_roundQuotient _ (Nat.pow_pos two_pos)
  unfold exact units
  split
  · rw [neg_mul]
    exact hrounded.neg
  · exact hrounded

end Binary64

end FileMarket
