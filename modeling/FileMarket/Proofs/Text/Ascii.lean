import FileMarket.Text.Ascii
import Mathlib.Tactic

/-!
# Where ASCII letters and digits stand

The code points of letters and digits, and of hexadecimal digits.
-/

set_option autoImplicit false

namespace FileMarket.Text

/-- A letter or digit of ASCII stands in one of three ranges. -/
theorem toNat_of_isAlphanum {c : Char} (h : c.isAlphanum = true) :
    (65 ≤ c.toNat ∧ c.toNat ≤ 90) ∨ (97 ≤ c.toNat ∧ c.toNat ≤ 122) ∨
      (48 ≤ c.toNat ∧ c.toNat ≤ 57) := by
  have hkinds : (c.isUpper || c.isLower || c.isDigit) = true := h
  rw [Bool.or_eq_true, Bool.or_eq_true] at hkinds
  rcases hkinds with (hupper | hlower) | hdigit
  · exact Or.inl (of_decide_eq_true hupper)
  · obtain ⟨hlow, hhigh⟩ := (Bool.and_eq_true _ _).mp hlower
    exact Or.inr (Or.inl ⟨of_decide_eq_true hlow, of_decide_eq_true hhigh⟩)
  · obtain ⟨hlow, hhigh⟩ := (Bool.and_eq_true _ _).mp hdigit
    exact Or.inr (Or.inr ⟨of_decide_eq_true hlow, of_decide_eq_true hhigh⟩)

/-- Hexadecimal digits stand in three ranges of ASCII. -/
theorem toNat_of_hexValue? {c : Char} (h : (hexValue? c).isSome) :
    (48 ≤ c.toNat ∧ c.toNat ≤ 57) ∨ (65 ≤ c.toNat ∧ c.toNat ≤ 70) ∨
      (97 ≤ c.toNat ∧ c.toNat ≤ 102) := by
  unfold hexValue? at h
  split at h
  · rename_i hdigit
    exact Or.inl hdigit
  split at h
  · rename_i hsmall
    exact Or.inr (Or.inr hsmall)
  split at h
  · rename_i hcapital
    exact Or.inr (Or.inl hcapital)
  · cases h

end FileMarket.Text
