import FileMarket.Price
import Mathlib.Tactic

/-!
# Laws of prices and of the balance gate

A typed price and the price of a purchase pass for the same reason: they are amounts, that is finite
and not negative (`parsePrice_eq_ok_iff`, `validatePrice_eq_ok_iff_isAmount`). The gate lets a
purchase through exactly if the price is set and an amount and the balance is known and finite; what
it lets through it does not change.
-/

set_option autoImplicit false

namespace FileMarket

open Text

/-- An amount is finite and not below zero, however the two are compared. -/
theorem Binary64.isAmount_iff {x : Binary64} :
    x.isAmount = true ↔ x.isFinite = true ∧ x.lt .zero = false := by
  have hzero : Binary64.zero.isNaN = false ∧ Binary64.zero.position = 0 := by decide
  rw [isAmount, Bool.and_eq_true, and_congr_right_iff]
  intro hfinite
  -- What is finite is a number, so each comparison is one of places on the line.
  have hnumber : x.isNaN = false := by
    have hbelow : x.magnitude < infinityMagnitude := of_decide_eq_true hfinite
    exact decide_eq_false (by omega)
  simp only [le, lt, hzero, hnumber, Bool.not_false, Bool.true_and, decide_eq_true_eq,
    decide_eq_false_iff_not, not_lt]

/-- A typed price is the amount that the text denotes between its blanks. -/
theorem parsePrice_eq_ok_iff {text : String} {x : Binary64} :
    parsePrice text = .ok x ↔ Binary64.ofText? (trim text) = some x ∧ x.isAmount = true := by
  have hempty : Binary64.ofText? "" = none := by decide
  unfold parsePrice
  dsimp only
  split
  · rename_i hblank
    rw [String.isEmpty_iff.1 hblank, hempty]
    exact ⟨nofun, nofun⟩
  · cases Binary64.ofText? (trim text) with
    | none => exact ⟨nofun, nofun⟩
    | some y =>
      dsimp only
      split
      · rename_i hamount
        constructor
        · rintro ⟨⟩
          exact ⟨rfl, hamount⟩
        · rintro ⟨⟨⟩, -⟩
          rfl
      · rename_i hunfit
        constructor
        · rintro ⟨⟩
        · rintro ⟨⟨⟩, hamount⟩
          exact absurd hamount hunfit

/-- A price is accepted as it stands, if it is finite and not negative. -/
theorem validatePrice_eq_ok_iff (price : Option Binary64) (x : Binary64) :
    validatePrice price = .ok x ↔
      price = some x ∧ x.isFinite = true ∧ x.lt .zero = false := by
  cases price with
  | none => simp [validatePrice]
  | some y =>
    unfold validatePrice
    cases hfinite : y.isFinite <;> cases hnegative : y.lt .zero <;> simp [hfinite, hnegative] <;>
      rintro rfl <;> simp [hfinite, hnegative]

/-- The prices that are accepted are the amounts. -/
theorem validatePrice_eq_ok_iff_isAmount {price : Option Binary64} {x : Binary64} :
    validatePrice price = .ok x ↔ price = some x ∧ x.isAmount = true := by
  rw [validatePrice_eq_ok_iff, Binary64.isAmount_iff]

/-- An error that is the refusal of a price. -/
def MarketError.IsPriceRefusal (error : MarketError) : Prop :=
  ∃ price, validatePrice price = .error error

/-- A price is bad input, whatever is wrong with it. -/
theorem MarketError.IsPriceRefusal.exists_validation {error : MarketError}
    (h : error.IsPriceRefusal) : ∃ detail, error = .validation detail := by
  obtain ⟨price, hprice⟩ := h
  cases price with
  | none => exact ⟨_, (Except.error.inj hprice).symm⟩
  | some x =>
    unfold validatePrice at hprice
    dsimp only at hprice
    split at hprice
    · exact ⟨_, (Except.error.inj hprice).symm⟩
    · cases hprice

namespace BalanceGate

/-- The gate refuses a price exactly if it is not accepted, whatever the balance is. -/
theorem check_refuses_price_iff {balance price : Option Binary64} :
    (∃ error, check balance price = .error error ∧ error.IsPriceRefusal) ↔
      ∀ x, validatePrice price ≠ .ok x := by
  unfold check
  cases hprice : validatePrice price with
  | error error =>
    constructor
    · intro _ x
      exact nofun
    · intro _
      exact ⟨error, rfl, price, hprice⟩
  | ok x =>
    constructor
    · rintro ⟨error, herror, hrefusal⟩
      -- An accepted price leaves the balance as the only reason, and that is no bad input.
      obtain ⟨detail, rfl⟩ := hrefusal.exists_validation
      simp only [bind, Except.bind] at herror
      split at herror <;> cases herror
    · intro hnever
      exact absurd rfl (hnever x)

/-- What the gate lets through. -/
theorem check_eq_ok_iff (balance price : Option Binary64) (gate : BalanceGate) :
    check balance price = .ok gate ↔
      balance = some gate.balance ∧ gate.balance.isFinite = true ∧ price = some gate.price ∧
        gate.price.isFinite = true ∧ gate.price.lt .zero = false ∧
        gate.newBalance = gate.balance.sub gate.price := by
  constructor
  · intro h
    unfold check at h
    cases hprice : validatePrice price with
    | error error => simp [hprice, bind, Except.bind] at h
    | ok x =>
      cases hbalance : balance.filter Binary64.isFinite with
      | none => simp [hprice, hbalance, bind, Except.bind, throw, throwThe, MonadExceptOf.throw] at h
      | some b =>
        obtain ⟨hsome, hfinite⟩ := Option.filter_eq_some_iff.1 hbalance
        simp only [hprice, hbalance, bind, Except.bind, pure, Except.pure, Except.ok.injEq] at h
        subst h
        obtain ⟨hset, hpriceFinite, hnegative⟩ := (validatePrice_eq_ok_iff price x).1 hprice
        exact ⟨hsome, hfinite, hset, hpriceFinite, hnegative, rfl⟩
  · rintro ⟨hbalance, hfinite, hprice, hpriceFinite, hnegative, hnew⟩
    have hvalid : validatePrice price = .ok gate.price :=
      (validatePrice_eq_ok_iff price gate.price).2 ⟨hprice, hpriceFinite, hnegative⟩
    have hknown : balance.filter Binary64.isFinite = some gate.balance :=
      Option.filter_eq_some_iff.2 ⟨hbalance, hfinite⟩
    simp only [check, hvalid, hknown, bind, Except.bind, pure, Except.pure, ← hnew]

end BalanceGate

end FileMarket
