import FileMarket.Proofs.Text.Blank
import FileMarket.Text.Ascii
import Mathlib.Data.Char
import Mathlib.Tactic

/-!
# Laws of decimal digits

The digits of a number denote it (`digitsValue_decimalDigits`), with zeros in front or without
(`digitsValue_padded`), and a number below a power of ten fills exactly the width it is padded to
(`length_padded`). No digit is blank. Digits of one length are in the order of the numbers that they
denote (`compare_digits_of_length_eq`), since numbers are compared by their higher places first
(`compare_place`).
-/

set_option autoImplicit false

namespace FileMarket.Text

theorem isDigit_iff {c : Char} : c.isDigit = true ↔ 48 ≤ c.toNat ∧ c.toNat ≤ 57 :=
  Char.isDigit_iff_toNat

theorem isBlank_of_isDigit {c : Char} (h : c.isDigit = true) : isBlank c = false := by
  have hrange := isDigit_iff.1 h
  exact isBlank_of_visible (by omega) (by omega)

/-- Two ways of reading digits off a text agree. -/
theorem digitsValue_eq_ofDigitChars (ds : List Char) :
    digitsValue ds = Nat.ofDigitChars 10 ds 0 := by
  rw [Nat.ofDigitChars_eq_foldl]
  rfl

@[simp]
theorem digitsValue_decimalDigits (n : Nat) : digitsValue (decimalDigits n) = n := by
  rw [digitsValue_eq_ofDigitChars]
  exact Nat.ofDigitChars_ten_toDigits

theorem isDigit_of_mem_decimalDigits {n : Nat} {c : Char} (h : c ∈ decimalDigits n) :
    c.isDigit = true :=
  Nat.isDigit_of_mem_toDigits (by decide) (by decide) h

/-- Behind any text, the digits of a number end in a digit. -/
theorem exists_getLast?_append_decimalDigits (s : List Char) (n : Nat) :
    ∃ c ∈ (s ++ decimalDigits n).getLast?, c.isDigit = true := by
  have hne : decimalDigits n ≠ [] := Nat.toDigits_ne_nil
  refine ⟨(decimalDigits n).getLast hne, ?_, isDigit_of_mem_decimalDigits (List.getLast_mem hne)⟩
  rw [List.getLast?_append_of_ne_nil _ hne]
  exact List.getLast?_eq_getLast_of_ne_nil hne

@[simp]
theorem digitsValue_padded (width n : Nat) : digitsValue (padded width n) = n := by
  have hzeros : ∀ k, digitsValue (List.replicate k '0' ++ decimalDigits n) = n := by
    intro k
    induction k with
    | zero => exact digitsValue_decimalDigits n
    | succ k ih => exact ih
  exact hzeros _

theorem isDigit_of_mem_padded {width n : Nat} {c : Char} (h : c ∈ padded width n) :
    c.isDigit = true := by
  rcases List.mem_append.1 h with h | h
  · rw [List.eq_of_mem_replicate h]
    rfl
  · exact isDigit_of_mem_decimalDigits h

theorem isBlank_of_mem_padded {width n : Nat} {c : Char} (h : c ∈ padded width n) :
    isBlank c = false :=
  isBlank_of_isDigit (isDigit_of_mem_padded h)

theorem padded_ne_nil (width n : Nat) : padded width n ≠ [] :=
  List.append_ne_nil_of_right_ne_nil _ Nat.toDigits_ne_nil

/-- A number that is not too long fills exactly the width. -/
theorem length_padded {width n : Nat} (hwidth : 0 < width) (h : n < 10 ^ width) :
    (padded width n).length = width := by
  have hle : (decimalDigits n).length ≤ width :=
    (Nat.length_toDigits_le_iff (by decide) hwidth).2 h
  rw [padded, List.length_append, List.length_replicate]
  omega

/-- Digits end where something else begins. -/
theorem spanDigits_append {ds rest : List Char} (hds : ∀ c ∈ ds, c.isDigit = true)
    (hrest : ∀ c ∈ rest.head?, c.isDigit = false) : spanDigits (ds ++ rest) = (ds, rest) := by
  have hstop : rest.takeWhile Char.isDigit = [] ∧ rest.dropWhile Char.isDigit = rest := by
    cases rest with
    | nil => exact ⟨rfl, rfl⟩
    | cons c rest =>
      have hc : ¬ c.isDigit = true := by simp [hrest c rfl]
      exact ⟨List.takeWhile_cons_of_neg hc, List.dropWhile_cons_of_neg hc⟩
  rw [spanDigits, List.takeWhile_append_of_pos hds, List.dropWhile_append_of_pos hds, hstop.1,
    hstop.2, List.append_nil]

/-! ## Values of digits -/

theorem digitsValue_cons (c : Char) (ds : List Char) :
    digitsValue (c :: ds) = digitValue c * 10 ^ ds.length + digitsValue ds := by
  rw [digitsValue_eq_ofDigitChars, digitsValue_eq_ofDigitChars, Nat.ofDigitChars_cons,
    Nat.ofDigitChars_eq_ofDigitChars_zero, Nat.mul_zero, Nat.zero_add, Nat.mul_comm]
  rfl

theorem digitsValue_append (ds es : List Char) :
    digitsValue (ds ++ es) = digitsValue ds * 10 ^ es.length + digitsValue es := by
  induction ds with
  | nil => simp [digitsValue]
  | cons c ds ih =>
    rw [List.cons_append, digitsValue_cons, digitsValue_cons, ih, List.length_append, pow_add]
    ring

theorem digitValue_lt {c : Char} (h : c.isDigit = true) : digitValue c < 10 := by
  have hrange := isDigit_iff.1 h
  show c.toNat - 48 < 10
  omega

theorem eq_of_digitValue_eq {c d : Char} (hc : c.isDigit = true) (hd : d.isDigit = true)
    (h : digitValue c = digitValue d) : c = d := by
  have hc' := isDigit_iff.1 hc
  have hd' := isDigit_iff.1 hd
  refine Char.toNat_inj.1 ?_
  have h' : c.toNat - 48 = d.toNat - 48 := h
  omega

theorem digitsValue_lt {ds : List Char} (h : ∀ c ∈ ds, c.isDigit = true) :
    digitsValue ds < 10 ^ ds.length := by
  induction ds with
  | nil => decide
  | cons c ds ih =>
    obtain ⟨hc, hds⟩ := List.forall_mem_cons.1 h
    have hdigit := digitValue_lt hc
    have hrest := ih hds
    rw [digitsValue_cons, List.length_cons, pow_succ]
    nlinarith

/-- Without a zero in front, a number fills its digits. -/
theorem le_digitsValue_cons {c : Char} (hc : c.isDigit = true) (hzero : c ≠ '0') (ds : List Char) :
    10 ^ ds.length ≤ digitsValue (c :: ds) := by
  have hrange := isDigit_iff.1 hc
  have hne : c.toNat ≠ 48 := fun h => hzero (Char.toNat_inj.1 h)
  have hdigit : 1 ≤ digitValue c := by
    show 1 ≤ c.toNat - 48
    omega
  rw [digitsValue_cons]
  nlinarith [Nat.zero_le (digitsValue ds), Nat.one_le_pow ds.length 10 (by decide)]

/-- Zeros in front do not count. -/
theorem digitsValue_dropWhile_zero (ds : List Char) :
    digitsValue (ds.dropWhile (· == '0')) = digitsValue ds := by
  induction ds with
  | nil => rfl
  | cons c ds ih =>
    by_cases hc : c = '0'
    · subst hc
      rw [List.dropWhile_cons_of_pos rfl, ih, digitsValue_cons]
      show digitsValue ds = 0 * _ + digitsValue ds
      rw [Nat.zero_mul, Nat.zero_add]
    · rw [List.dropWhile_cons_of_neg (by simpa using hc)]

/-! ## Comparing place by place -/

section Places

variable {α β : Type} [LinearOrder α] [LinearOrder β] {a b : α} {x y : β}

/-- A higher place decides, and where it is the same the lower ones do. -/
theorem compare_then_eq {lower : Ordering} (hlt : a < b → x < y) (hgt : b < a → y < x)
    (heq : a = b → lower = compare x y) : (compare a b).then lower = compare x y := by
  rcases lt_trichotomy a b with h | h | h
  · rw [compare_lt_iff_lt.2 h, compare_lt_iff_lt.2 (hlt h)]
    rfl
  · rw [compare_eq_iff_eq.2 h, Ordering.eq_then, heq h]
  · rw [compare_gt_iff_gt.2 h, compare_gt_iff_gt.2 (hgt h)]
    rfl

theorem compare_eq_compare (hlt : a < b → x < y) (hgt : b < a → y < x) (heq : a = b → x = y) :
    compare a b = compare x y := by
  rw [← compare_then_eq hlt hgt fun h => (compare_eq_iff_eq.2 (heq h)).symm, Ordering.then_eq]

end Places

/-- Numbers are compared by their higher places first. -/
theorem compare_place {unit low low' : Nat} (hlow : low < unit) (hlow' : low' < unit)
    (high high' : Nat) : (compare high high').then (compare low low') =
      compare (high * unit + low) (high' * unit + low') := by
  have hbelow : ∀ {x y l l' : Nat}, l < unit → x < y → x * unit + l < y * unit + l' := by
    intro x y l l' hl hxy
    calc x * unit + l < x * unit + unit := Nat.add_lt_add_left hl _
      _ = (x + 1) * unit := (Nat.succ_mul x unit).symm
      _ ≤ y * unit := Nat.mul_le_mul_right unit hxy
      _ ≤ y * unit + l' := Nat.le_add_right _ _
  refine compare_then_eq (hbelow hlow) (hbelow hlow') ?_
  rintro rfl
  exact compare_eq_compare (Nat.add_lt_add_left · _) (Nat.add_lt_add_left · _)
    (congrArg (high * unit + ·))

/-- Two digits are in the order of their values. -/
theorem compare_eq_compare_digitValue {a b : Char} (ha : a.isDigit = true) (hb : b.isDigit = true) :
    compare a b = compare (digitValue a) (digitValue b) := by
  have hrange := isDigit_iff.1 ha
  have hrange' := isDigit_iff.1 hb
  have hless : ∀ {c d : Char}, 48 ≤ c.toNat → c < d → digitValue c < digitValue d := by
    intro c d hc h
    have hnat : c.toNat < d.toNat := UInt32.lt_iff_toNat_lt.1 h
    show c.toNat - 48 < d.toNat - 48
    omega
  exact compare_eq_compare (hless hrange.1) (hless hrange'.1) (congrArg digitValue)

/-- Digits of one length are in the order of the numbers that they denote. -/
theorem compare_digits_of_length_eq {as bs : List Char} (ha : ∀ c ∈ as, c.isDigit = true)
    (hb : ∀ c ∈ bs, c.isDigit = true) (h : as.length = bs.length) :
    compare as bs = compare (digitsValue as) (digitsValue bs) := by
  induction as generalizing bs with
  | nil =>
    obtain rfl : bs = [] := List.length_eq_zero_iff.1 h.symm
    rfl
  | cons a as ih =>
    obtain ⟨b, bs, rfl⟩ := List.exists_cons_of_length_eq_add_one h.symm
    obtain ⟨hahead, hatail⟩ := List.forall_mem_cons.1 ha
    obtain ⟨hbhead, hbtail⟩ := List.forall_mem_cons.1 hb
    have hlength : as.length = bs.length := Nat.succ.inj h
    have hvalue : digitsValue as < 10 ^ bs.length := hlength ▸ digitsValue_lt hatail
    rw [List.compare_cons_cons, ih hatail hbtail hlength, compare_eq_compare_digitValue hahead hbhead,
      compare_place hvalue (digitsValue_lt hbtail), digitsValue_cons, digitsValue_cons, hlength]

end FileMarket.Text
