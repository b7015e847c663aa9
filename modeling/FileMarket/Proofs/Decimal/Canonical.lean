import FileMarket.Decimal.Reader
import FileMarket.Proofs.Text.Digits

/-!
# Canonical decimals

A decimal has one shortest notation without an exponent: no zeros in front of the whole part, no
zeros at the end of the decimals and no point where there are none, and no minus before zero. A
`PlainDecimal` is a number in this notation. Reading its text gives its value
(`PlainDecimal.readDecimal?_text`), and no two of them have the same value
(`PlainDecimal.value_injective`), so that texts in this notation are alike exactly if the numbers
are.
-/

set_option autoImplicit false

namespace FileMarket

open Text

/-! ## Decimals after the point -/

/-- What the digits after a point stand for. -/
def fraction : List Char → ℚ
  | [] => 0
  | c :: ds => (digitValue c + fraction ds) / 10

theorem fraction_nonneg (ds : List Char) : 0 ≤ fraction ds := by
  induction ds with
  | nil => exact le_refl 0
  | cons c ds ih =>
    rw [fraction]
    positivity

theorem fraction_lt_one {ds : List Char} (h : ∀ c ∈ ds, c.isDigit = true) : fraction ds < 1 := by
  induction ds with
  | nil => exact one_pos
  | cons c ds ih =>
    obtain ⟨hc, hds⟩ := List.forall_mem_cons.1 h
    have hdigit : (digitValue c : ℚ) + 1 ≤ 10 := by exact_mod_cast digitValue_lt hc
    have hrest := ih hds
    rw [fraction]
    linarith

/-- The digits after a point, read as a number. -/
theorem fraction_eq (ds : List Char) : fraction ds = digitsValue ds / 10 ^ ds.length := by
  induction ds with
  | nil => norm_num [fraction, digitsValue]
  | cons c ds ih =>
    rw [fraction, ih, digitsValue_cons, List.length_cons, pow_succ]
    push_cast
    field_simp

theorem fraction_zeros (k : Nat) : fraction (List.replicate k '0') = 0 := by
  induction k with
  | zero => rfl
  | succ k ih =>
    rw [List.replicate_succ, fraction, ih]
    norm_num [digitValue]

/-- Zeros at the end do not count. -/
theorem fraction_append_zeros (ds : List Char) (k : Nat) :
    fraction (ds ++ List.replicate k '0') = fraction ds := by
  induction ds with
  | nil => exact fraction_zeros k
  | cons c ds ih => rw [List.cons_append, fraction, ih, fraction]

/-- Two numbers with the same whole part and a fraction below one. -/
theorem natCast_add_inj {m n : Nat} {f g : ℚ} (hf : 0 ≤ f) (hf' : f < 1) (hg : 0 ≤ g) (hg' : g < 1)
    (h : (m : ℚ) + f = n + g) : m = n ∧ f = g := by
  have hmn : m = n := by
    have hlt : (m : ℚ) < n + 1 := by linarith
    have hgt : (n : ℚ) < m + 1 := by linarith
    norm_cast at hlt hgt
    omega
  subst hmn
  exact ⟨rfl, add_left_cancel h⟩

/-- The end of what follows a character is the end of the whole. -/
theorem getLast?_tail_ne {z c : Char} {ds : List Char} (h : (c :: ds).getLast? ≠ some z) :
    ds.getLast? ≠ some z := by
  intro hds
  rw [List.getLast?_cons, hds] at h
  exact h rfl

/-- Decimals that do not end in a zero stand for more than nothing. -/
theorem fraction_eq_zero_iff {ds : List Char} (h : ∀ c ∈ ds, c.isDigit = true)
    (hlast : ds.getLast? ≠ some '0') : fraction ds = 0 ↔ ds = [] := by
  refine ⟨fun hzero => ?_, fun hnil => hnil ▸ rfl⟩
  induction ds with
  | nil => rfl
  | cons c ds ih =>
    obtain ⟨hc, hds⟩ := List.forall_mem_cons.1 h
    have hnonneg := fraction_nonneg ds
    have hsum : (digitValue c : ℚ) + fraction ds = 0 := by
      rw [fraction] at hzero
      linarith
    have hdigit : digitValue c = 0 := by
      have hle : (digitValue c : ℚ) ≤ 0 := by linarith
      exact Nat.le_zero.1 (by exact_mod_cast hle)
    have hnil := ih hds (getLast?_tail_ne hlast) (by rw [hdigit] at hsum; simpa using hsum)
    rw [hnil, eq_of_digitValue_eq hc (d := '0') rfl hdigit] at hlast
    exact absurd rfl hlast

/-- Decimals that do not end in a zero are determined by what they stand for. -/
theorem fraction_injective {ds es : List Char} (hds : ∀ c ∈ ds, c.isDigit = true)
    (hes : ∀ c ∈ es, c.isDigit = true) (hds' : ds.getLast? ≠ some '0')
    (hes' : es.getLast? ≠ some '0') (h : fraction ds = fraction es) : ds = es := by
  induction ds generalizing es with
  | nil => exact ((fraction_eq_zero_iff hes hes').1 h.symm).symm
  | cons c ds ih =>
    cases es with
    | nil => exact (fraction_eq_zero_iff hds hds').1 h
    | cons d es =>
      obtain ⟨hc, hds⟩ := List.forall_mem_cons.1 hds
      obtain ⟨hd, hes⟩ := List.forall_mem_cons.1 hes
      -- Ten times the fraction has the first digit as its whole part.
      have hsum : (digitValue c : ℚ) + fraction ds = digitValue d + fraction es := by
        rw [fraction, fraction] at h
        linarith
      obtain ⟨hdigit, hrest⟩ := natCast_add_inj (fraction_nonneg ds) (fraction_lt_one hds)
        (fraction_nonneg es) (fraction_lt_one hes) hsum
      rw [eq_of_digitValue_eq hc hd hdigit,
        ih hds hes (getLast?_tail_ne hds') (getLast?_tail_ne hes') hrest]

/-! ## Reading -/

/-- The number that a decimal text denotes. -/
def readDecimal? (s : List Char) : Option ℚ :=
  let (minus, body) := spanSign s
  (decimalOf? body).map fun (n, e) => if minus then -(n * 10 ^ e) else n * 10 ^ e

/-! ## Plain decimals -/

/-- Decimals with their point, if there are any. -/
def pointedDecimals (ds : List Char) : List Char := if ds = [] then [] else '.' :: ds

/-- A number in its shortest notation without an exponent. -/
structure PlainDecimal where
  negative : Bool
  whole : Nat
  decimals : List Char
  isDigit : ∀ c ∈ decimals, c.isDigit = true
  /-- No zero stands at the end of the decimals. -/
  last_ne_zero : decimals.getLast? ≠ some '0'
  /-- Zero has no minus. -/
  nonzero : negative = true → whole ≠ 0 ∨ decimals ≠ []

namespace PlainDecimal

/-- The whole part, behind a minus if there is one. -/
def front (d : PlainDecimal) : List Char :=
  (if d.negative then ['-'] else []) ++ decimalDigits d.whole

/-- The text: the whole part and the decimals, with the point between them. -/
def text (d : PlainDecimal) : List Char := d.front ++ pointedDecimals d.decimals

/-- The number without its sign. -/
def magnitude (d : PlainDecimal) : ℚ := d.whole + fraction d.decimals

/-- The number. -/
def value (d : PlainDecimal) : ℚ := if d.negative then -d.magnitude else d.magnitude

theorem magnitude_nonneg (d : PlainDecimal) : 0 ≤ d.magnitude :=
  add_nonneg (Nat.cast_nonneg _) (fraction_nonneg _)

theorem magnitude_eq_zero_iff (d : PlainDecimal) :
    d.magnitude = 0 ↔ d.whole = 0 ∧ d.decimals = [] := by
  rw [magnitude, add_eq_zero_iff_of_nonneg (Nat.cast_nonneg _) (fraction_nonneg _),
    Nat.cast_eq_zero, fraction_eq_zero_iff d.isDigit d.last_ne_zero]

/-- What has a minus is below zero. -/
theorem value_neg_iff (d : PlainDecimal) : d.value < 0 ↔ d.negative = true := by
  have hnonneg := d.magnitude_nonneg
  unfold value
  cases hsign : d.negative with
  | false => simpa using hnonneg
  | true =>
    have hne : d.magnitude ≠ 0 := by
      rw [Ne, magnitude_eq_zero_iff, not_and_or]
      exact d.nonzero hsign
    simpa using lt_of_le_of_ne hnonneg hne.symm

/-- No number has two shortest notations. -/
theorem value_injective {d e : PlainDecimal} (h : d.value = e.value) : d = e := by
  -- The sign of the value, its whole part and its fraction determine the three fields.
  have hsign : d.negative = e.negative := by
    rw [Bool.eq_iff_iff, ← value_neg_iff, ← value_neg_iff, h]
  have hmagnitude : d.magnitude = e.magnitude := by
    unfold value at h
    rw [hsign] at h
    split at h
    · exact neg_injective h
    · exact h
  obtain ⟨hwhole, hfraction⟩ := natCast_add_inj (fraction_nonneg _) (fraction_lt_one d.isDigit)
    (fraction_nonneg _) (fraction_lt_one e.isDigit) hmagnitude
  have hdecimals := fraction_injective d.isDigit e.isDigit d.last_ne_zero e.last_ne_zero hfraction
  cases d
  cases e
  simp_all

theorem spanSign_text (d : PlainDecimal) : spanSign d.text =
    (d.negative, decimalDigits d.whole ++ pointedDecimals d.decimals) := by
  cases hsign : d.negative with
  | true => simp [text, front, hsign, spanSign]
  | false =>
    -- A text that begins with a digit has no sign.
    obtain ⟨c, ds, hds⟩ := List.exists_cons_of_ne_nil (Nat.toDigits_ne_nil (b := 10) (n := d.whole))
    have hdigits : decimalDigits d.whole = c :: ds := hds
    have hc : c.isDigit = true :=
      isDigit_of_mem_decimalDigits (n := d.whole) (by rw [hdigits]; exact List.mem_cons_self)
    rw [text, front, hsign, hdigits]
    show spanSign (c :: (ds ++ _)) = _
    unfold spanSign
    split
    · rename_i heq
      rw [(List.cons.inj heq).1] at hc
      cases hc
    · rename_i heq
      rw [(List.cons.inj heq).1] at hc
      cases hc
    · rfl

theorem decimalOf?_body (d : PlainDecimal) :
    decimalOf? (decimalDigits d.whole ++ pointedDecimals d.decimals) =
      some (digitsValue (decimalDigits d.whole ++ d.decimals), -(d.decimals.length : ℤ)) := by
  have hwhole : spanDigits (decimalDigits d.whole ++ pointedDecimals d.decimals) =
      (decimalDigits d.whole, pointedDecimals d.decimals) := by
    refine spanDigits_append (fun _ => isDigit_of_mem_decimalDigits) ?_
    unfold pointedDecimals
    split
    · rintro _ ⟨⟩
    · rintro _ ⟨⟩
      rfl
  have hdecimals : spanDigits d.decimals = (d.decimals, []) := by
    have hspan : spanDigits (d.decimals ++ []) = (d.decimals, []) :=
      spanDigits_append d.isDigit (by rintro _ ⟨⟩)
    rwa [List.append_nil] at hspan
  have hne : decimalDigits d.whole ≠ [] := Nat.toDigits_ne_nil
  unfold decimalOf?
  rw [hwhole]
  by_cases hnone : d.decimals = []
  · simp [pointedDecimals, hnone, hne, exponentOf?]
  · simp [pointedDecimals, hnone, hne, hdecimals, exponentOf?]

/-- Reading the text gives the number. -/
theorem readDecimal?_text (d : PlainDecimal) : readDecimal? d.text = some d.value := by
  have hmagnitude : (digitsValue (decimalDigits d.whole ++ d.decimals) : ℚ) *
      10 ^ (-(d.decimals.length : ℤ)) = d.magnitude := by
    rw [magnitude, fraction_eq, digitsValue_append, digitsValue_decimalDigits, zpow_neg,
      zpow_natCast]
    push_cast
    field_simp
  rw [readDecimal?, spanSign_text]
  simp only [decimalOf?_body, Option.map_some, hmagnitude]
  rfl

/-- The texts of two numbers are alike only if the numbers are. -/
theorem text_eq_iff {d e : PlainDecimal} : d.text = e.text ↔ d.value = e.value := by
  refine ⟨fun h => ?_, fun h => congrArg text (value_injective h)⟩
  have hvalue := d.readDecimal?_text
  rw [h, readDecimal?_text] at hvalue
  exact (Option.some.inj hvalue).symm

theorem notMem_of_isDigit {ds : List Char} {z : Char} (hds : ∀ c ∈ ds, c.isDigit = true)
    (hz : z.isDigit = false) : z ∉ ds :=
  fun h => Bool.eq_false_iff.1 hz (hds z h)

/-- The text has a minus if the number has. -/
theorem minus_mem_text_iff (d : PlainDecimal) : '-' ∈ d.text ↔ d.negative = true := by
  have hwhole : '-' ∉ decimalDigits d.whole :=
    notMem_of_isDigit (fun _ => isDigit_of_mem_decimalDigits) rfl
  have hdecimals : '-' ∉ pointedDecimals d.decimals := by
    unfold pointedDecimals
    split
    · exact List.not_mem_nil
    · exact List.not_mem_cons_of_ne_of_not_mem (by decide) (notMem_of_isDigit d.isDigit rfl)
  unfold text front
  cases d.negative <;> simp [hwhole, hdecimals]

/-- The text has a point if there are decimals, and it stands between the whole part and the
decimals. -/
theorem text_eq_append_point_iff (d : PlainDecimal) (before after : List Char) :
    d.text = before ++ '.' :: after ↔ d.decimals ≠ [] ∧ before = d.front ∧ after = d.decimals := by
  have hfront : '.' ∉ d.front := by
    have hwhole : '.' ∉ decimalDigits d.whole :=
      notMem_of_isDigit (fun _ => isDigit_of_mem_decimalDigits) rfl
    unfold front
    cases d.negative <;> simp [hwhole]
  unfold text pointedDecimals
  split
  · rename_i hnone
    refine iff_of_false (fun h => hfront ?_) fun h => h.1 hnone
    rw [← List.append_nil d.front, h]
    exact List.mem_append_right _ List.mem_cons_self
  · rename_i hsome
    refine ⟨fun h => ⟨hsome, ?_⟩, ?_⟩
    · obtain ⟨hbefore, _, hafter⟩ :=
        (List.append_cons_inj_of_notMem hfront (notMem_of_isDigit d.isDigit rfl)).1 h
      exact ⟨hbefore.symm, hafter.symm⟩
    · rintro ⟨_, rfl, rfl⟩
      rfl

end PlainDecimal

end FileMarket
