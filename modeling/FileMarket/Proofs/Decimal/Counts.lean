import FileMarket.Decimal.Reader
import Mathlib.Tactic

/-!
# Reading counts

A text is read as a count exactly if it is an optional plus followed by decimal digits, at least
one, that denote a number below `2 ^ 64` (`readCount_eq_ok_iff`).
-/

set_option autoImplicit false

namespace FileMarket

open Text

/-- The text of a natural number: decimal digits, at least one, with a plus in front or without. -/
def Spells (s : String) (n : Nat) : Prop :=
  ∃ ds, ds ≠ [] ∧ (∀ c ∈ ds, c.isDigit = true) ∧ digitsValue ds = n ∧
    (s.toList = ds ∨ s.toList = '+' :: ds)

/-- A digit is read if the number stays below the bound. -/
theorem readDigit_eq_ok_iff {n m : Nat} {c : Char} :
    readDigit n c = .ok m ↔ c.isDigit = true ∧ 10 * n + digitValue c = m ∧ m < UInt64.size := by
  unfold readDigit
  cases c.isDigit with
  | false => simp
  | true =>
    by_cases hfits : 10 * n + digitValue c < UInt64.size
    · simp only [Bool.not_true, Bool.false_eq_true, if_false, if_pos hfits, Except.ok.injEq,
        true_and]
      exact ⟨fun heq => ⟨heq, heq ▸ hfits⟩, And.left⟩
    · simp only [Bool.not_true, Bool.false_eq_true, if_false, if_neg hfits, reduceCtorEq, true_and,
        false_iff]
      rintro ⟨rfl, hlt⟩
      exact hfits hlt

/-- Digits that follow make a number no smaller. -/
theorem le_foldl_digits (n : Nat) (ds : List Char) :
    n ≤ ds.foldl (fun n c => 10 * n + digitValue c) n := by
  induction ds generalizing n with
  | nil => exact le_refl n
  | cons c ds ih =>
    calc n ≤ 10 * n + digitValue c := by omega
      _ ≤ _ := ih _

/-- Digits are read one by one as long as the number stays below the bound, and since it only grows
this comes to the bound on the whole. -/
theorem foldlM_readDigit_eq_ok_iff {n m : Nat} (hn : n < UInt64.size) (ds : List Char) :
    ds.foldlM readDigit n = .ok m ↔ (∀ c ∈ ds, c.isDigit = true) ∧
      ds.foldl (fun n c => 10 * n + digitValue c) n = m ∧ m < UInt64.size := by
  induction ds generalizing n with
  | nil =>
    simp only [List.foldlM_nil, pure, Except.pure, Except.ok.injEq, List.foldl_nil]
    exact ⟨fun heq => ⟨nofun, heq, heq ▸ hn⟩, fun h => h.2.1⟩
  | cons c ds ih =>
    rw [List.foldlM_cons, List.forall_mem_cons, List.foldl_cons]
    constructor
    · intro h
      cases hdigit : readDigit n c with
      | error fault =>
        rw [hdigit] at h
        cases h
      | ok next =>
        obtain ⟨hc, rfl, hfits⟩ := readDigit_eq_ok_iff.1 hdigit
        rw [hdigit] at h
        obtain ⟨hds, hvalue, hm⟩ := (ih hfits).1 h
        exact ⟨⟨hc, hds⟩, hvalue, hm⟩
    · rintro ⟨⟨hc, hds⟩, hvalue, hm⟩
      have hfits : 10 * n + digitValue c < UInt64.size :=
        (le_foldl_digits _ ds).trans_lt (hvalue ▸ hm)
      rw [readDigit_eq_ok_iff.2 ⟨hc, rfl, hfits⟩]
      exact (ih hfits).2 ⟨hds, hvalue, hm⟩

/-- Digits without a sign are read as the number that they denote. -/
theorem digits_eq_ok_iff {ds : List Char} {n : UInt64} :
    (ds.foldlM readDigit 0).map UInt64.ofNat = .ok n ↔
      (∀ c ∈ ds, c.isDigit = true) ∧ digitsValue ds = n.toNat := by
  have hread := fun m => foldlM_readDigit_eq_ok_iff (n := 0) (m := m) (by decide) ds
  constructor
  · intro h
    cases hdigits : ds.foldlM readDigit 0 with
    | error fault =>
      rw [hdigits] at h
      cases h
    | ok m =>
      obtain ⟨hds, hvalue, hm⟩ := (hread m).1 hdigits
      rw [hdigits] at h
      obtain rfl := Except.ok.inj h
      exact ⟨hds, hvalue.trans (UInt64.toNat_ofNat_of_lt' hm).symm⟩
  · rintro ⟨hds, hvalue⟩
    rw [(hread n.toNat).2 ⟨hds, hvalue, n.toNat_lt⟩]
    exact congrArg Except.ok UInt64.ofNat_toNat

/-- A text is read as a count exactly if it spells it. -/
theorem readCount_eq_ok_iff {s : String} {n : UInt64} :
    readCount s = .ok n ↔ Spells s n.toNat := by
  unfold readCount Spells
  have hplus : Char.isDigit '+' = false := by decide
  split
  · rename_i hs
    simp [hs]
  · -- A plus alone has no digits behind it, and is none itself.
    rename_i hs
    simp only [hs, reduceCtorEq, false_iff]
    rintro ⟨ds, hne, hds, -, rfl | hcons⟩
    · simp [hplus] at hds
    · exact hne (List.cons.inj hcons).2.symm
  · rename_i ds hne hs
    rw [digits_eq_ok_iff, hs]
    constructor
    · rintro ⟨hds, hvalue⟩
      exact ⟨ds, hne, hds, hvalue, .inr rfl⟩
    · rintro ⟨ds', -, hds, hvalue, rfl | hcons⟩
      · simp [hplus] at hds
      · obtain rfl := (List.cons.inj hcons).2
        exact ⟨hds, hvalue⟩
  · rename_i ds hnil _ hsign
    rw [digits_eq_ok_iff]
    constructor
    · rintro ⟨hds, hvalue⟩
      exact ⟨_, fun h => hnil h, hds, hvalue, .inl rfl⟩
    · rintro ⟨ds', -, hds, hvalue, hs | hs⟩
      · rw [hs]
        exact ⟨hds, hvalue⟩
      · exact absurd hs (hsign ds')

end FileMarket
