import FileMarket.Receipt
import FileMarket.Proofs.Decimal.Canonical
import FileMarket.Proofs.Decimal.Nearest

/-!
# Texts of amounts

An amount is written in units of the eighth decimal place, with the zeros at the end left out. What
comes of it is the shortest notation of the rounded value (`toList_formatAmount`): the zeros are cut
only behind the point, however large the value, and what is rounded to zero has no minus. So amounts
look alike exactly if they are rounded to the same unit (`amounts_alike`).
-/

set_option autoImplicit false

namespace FileMarket

open Text

/-! ## Cutting characters off the end -/

theorem dropTrailing_append_cons {a c : Char} (h : a ≠ c) (s t : List Char) :
    dropTrailing c (s ++ a :: t) = s ++ a :: dropTrailing c t := by
  have ha : (a == c) = false := by simpa using h
  simp only [dropTrailing, List.reverse_append, List.reverse_cons, List.append_assoc,
    List.singleton_append, List.dropWhile_append]
  split
  · rename_i hnil
    rw [List.isEmpty_iff] at hnil
    simp [hnil, ha]
  · simp

theorem dropTrailing_of_getLast?_ne {c : Char} {s : List Char} (h : s.getLast? ≠ some c) :
    dropTrailing c s = s := by
  refine List.rdropWhile_eq_self_iff.2 fun hne hlast => h ?_
  rw [List.getLast?_eq_getLast_of_ne_nil hne, eq_of_beq hlast]

theorem getLast?_dropTrailing_ne (c : Char) (s : List Char) :
    (dropTrailing c s).getLast? ≠ some c := by
  intro hlast
  obtain ⟨hne, heq⟩ := List.mem_getLast?_eq_getLast hlast
  exact List.rdropWhile_last_not _ _ hne (beq_iff_eq.2 heq.symm)

theorem exists_dropTrailing_append_eq (c : Char) (s : List Char) :
    ∃ k, dropTrailing c s ++ List.replicate k c = s := by
  have hall : ∀ d ∈ s.rtakeWhile (· == c), d = c := fun d hd =>
    eq_of_beq (List.mem_rtakeWhile_imp (p := (· == c)) hd)
  refine ⟨(s.rtakeWhile (· == c)).length, ?_⟩
  rw [← List.eq_replicate_of_mem hall]
  exact List.rdropWhile_append_rtakeWhile

theorem isPrefix_dropTrailing (c : Char) (s : List Char) : dropTrailing c s <+: s :=
  List.rdropWhile_prefix _ s

/-! ## Units -/

/-- The decimals that are left of eight. -/
def amountDecimals (n : Nat) : List Char := dropTrailing '0' (padded 8 (n % 10 ^ 8))

theorem isDigit_of_mem_amountDecimals {n : Nat} {c : Char} (h : c ∈ amountDecimals n) :
    c.isDigit = true :=
  isDigit_of_mem_padded ((isPrefix_dropTrailing _ _).subset h)

theorem length_padded_eight (n : Nat) : (padded 8 (n % 10 ^ 8)).length = 8 :=
  length_padded (by decide) (Nat.mod_lt n (by decide))

theorem length_amountDecimals_le (n : Nat) : (amountDecimals n).length ≤ 8 :=
  (isPrefix_dropTrailing _ _).length_le.trans_eq (length_padded_eight n)

/-- The zeros that are left out do not count. -/
theorem fraction_amountDecimals (n : Nat) :
    fraction (amountDecimals n) = (n % 10 ^ 8 : ℕ) / 10 ^ 8 := by
  obtain ⟨k, hk⟩ := exists_dropTrailing_append_eq '0' (padded 8 (n % 10 ^ 8))
  rw [amountDecimals, ← fraction_append_zeros _ k, hk, fraction_eq, digitsValue_padded,
    length_padded_eight]

theorem whole_add_fraction (n : Nat) :
    ((n / 10 ^ 8 : ℕ) : ℚ) + fraction (amountDecimals n) = n / 10 ^ 8 := by
  rw [fraction_amountDecimals]
  have hquotient := natCast_div_eq_add n (b := 10 ^ 8) (by decide)
  rw [Nat.cast_pow, Nat.cast_ofNat] at hquotient
  exact hquotient.symm

/-- A number of units of `10 ^ -8`, in its shortest notation. -/
def PlainDecimal.ofUnits (n : ℤ) : PlainDecimal where
  negative := decide (n < 0)
  whole := n.natAbs / 10 ^ 8
  decimals := amountDecimals n.natAbs
  isDigit _ := isDigit_of_mem_amountDecimals
  last_ne_zero := getLast?_dropTrailing_ne _ _
  nonzero := by
    intro hnegative
    by_contra! hnone
    have hzero := whole_add_fraction n.natAbs
    rw [hnone.1, hnone.2, Nat.cast_zero, fraction, add_zero, eq_comm,
      div_eq_zero_iff, or_iff_left (by norm_num), Nat.cast_eq_zero, Int.natAbs_eq_zero] at hzero
    exact (of_decide_eq_true hnegative).ne hzero

theorem PlainDecimal.value_ofUnits (n : ℤ) : (ofUnits n).value = n / 10 ^ 8 := by
  have hmagnitude : (ofUnits n).magnitude = |(n : ℚ)| / 10 ^ 8 := by
    have hsum := whole_add_fraction n.natAbs
    rwa [Nat.cast_natAbs, Int.cast_abs] at hsum
  rw [value, hmagnitude]
  by_cases hnegative : n < 0
  · have hneg : (n : ℚ) < 0 := by exact_mod_cast hnegative
    simp only [ofUnits, hnegative, decide_true, if_true, abs_of_neg hneg, neg_div, neg_neg]
  · have hnonneg : (0 : ℚ) ≤ n := by exact_mod_cast not_lt.1 hnegative
    simp only [ofUnits, hnegative, decide_false, Bool.false_eq_true, if_false,
      abs_of_nonneg hnonneg]

/-! ## The text of an amount -/

/-- Zeros are cut only behind the point, and the point where no decimals are left. -/
theorem dropTrailing_pointed {s ds : List Char} (h : s.getLast? ≠ some '.')
    (hds : ∀ c ∈ ds, c.isDigit = true) :
    dropTrailing '.' (dropTrailing '0' (s ++ '.' :: ds)) =
      s ++ pointedDecimals (dropTrailing '0' ds) := by
  rw [dropTrailing_append_cons (by decide)]
  unfold pointedDecimals
  split
  · rename_i hnil
    rw [hnil]
    show List.rdropWhile _ (s ++ ['.']) = _
    rw [List.rdropWhile_concat_pos _ _ _ rfl, List.append_nil]
    exact dropTrailing_of_getLast?_ne h
  · rename_i hne
    -- A digit stands at the end, so no point is cut off.
    refine dropTrailing_of_getLast?_ne fun hlast => ?_
    obtain ⟨z, hz⟩ := Option.ne_none_iff_exists'.1 (List.getLast?_eq_none_iff.not.2 hne)
    have hdigit := hds z ((isPrefix_dropTrailing _ _).subset (List.mem_of_getLast? hz))
    rw [List.getLast?_append, List.getLast?_cons, hz] at hlast
    have hpoint : z = '.' := Option.some.inj hlast
    rw [hpoint] at hdigit
    cases hdigit

theorem toList_fixedText {places : Nat} (hplaces : places ≠ 0) {x : Binary64}
    (finite : x.isFinite = true) :
    (x.fixedText places).toList = ((if x.isNegative then ['-'] else []) ++
      decimalDigits (x.rounded places / 10 ^ places)) ++
        '.' :: padded places (x.rounded places % 10 ^ places) := by
  have hnumber : x.isNaN = false :=
    decide_eq_false (not_lt.2 (of_decide_eq_true finite).le)
  unfold Binary64.fixedText
  rw [String.toList_ofList]
  cases hsign : x.isNegative <;> simp [finite, hnumber, Binary64.pointed, hplaces]

/-- What is cut off, for any sign. -/
theorem cut_text (sign : List Char) (n : Nat) :
    dropTrailing '.' (dropTrailing '0' ((sign ++ decimalDigits (n / 10 ^ 8)) ++
      '.' :: padded 8 (n % 10 ^ 8))) =
      sign ++ decimalDigits (n / 10 ^ 8) ++ pointedDecimals (amountDecimals n) := by
  refine dropTrailing_pointed (fun hlast => ?_) fun _ => isDigit_of_mem_padded
  obtain ⟨c, hc, hdigit⟩ := exists_getLast?_append_decimalDigits sign (n / 10 ^ 8)
  rw [hlast, Option.mem_some] at hc
  rw [← hc] at hdigit
  cases hdigit

theorem PlainDecimal.text_ofUnits (n : ℤ) :
    (ofUnits n).text = (if n < 0 then ['-'] else []) ++ decimalDigits (n.natAbs / 10 ^ 8) ++
      pointedDecimals (amountDecimals n.natAbs) := by
  simp only [text, front, ofUnits, decide_eq_true_eq]

/-- Only zero could come out as a lone minus with a zero behind it, and nothing comes out empty. -/
theorem text_ofUnits_ne {n : ℤ} (hn : n ≠ 0) :
    ¬ ((PlainDecimal.ofUnits n).text = ['-', '0'] ∨ (PlainDecimal.ofUnits n).text = []) := by
  have hread := (PlainDecimal.ofUnits n).readDecimal?_text
  rintro (h | h)
  · have hzero : readDecimal? ['-', '0'] = some 0 := by
      have hdecimal : decimalOf? ['0'] = some (0, 0) := by decide
      simp [readDecimal?, spanSign, hdecimal]
    rw [h, hzero, PlainDecimal.value_ofUnits, Option.some.injEq, eq_comm, div_eq_zero_iff,
      or_iff_left (by norm_num), Int.cast_eq_zero] at hread
    exact hn hread
  · rw [h] at hread
    cases hread

/-- A finite amount is written in units, in their shortest notation. -/
theorem toList_formatAmount {x : Binary64} (finite : x.isFinite = true) :
    (formatAmount x).toList = (PlainDecimal.ofUnits (x.units 8)).text := by
  unfold formatAmount
  rw [toList_fixedText (by decide) finite, cut_text]
  by_cases hzero : x.rounded 8 = 0
  · -- The sign of what is rounded to zero is dropped.
    have hunits : x.units 8 = 0 := Int.natAbs_eq_zero.1 ((x.natAbs_units 8).trans hzero)
    rw [hzero, hunits]
    cases x.isNegative <;> decide
  · have hunits : x.units 8 ≠ 0 := by
      rw [← Int.natAbs_ne_zero, Binary64.natAbs_units]
      exact hzero
    have htext : (if x.isNegative then ['-'] else []) ++ decimalDigits (x.rounded 8 / 10 ^ 8) ++
        pointedDecimals (amountDecimals (x.rounded 8)) =
          (PlainDecimal.ofUnits (x.units 8)).text := by
      rw [PlainDecimal.text_ofUnits, Binary64.natAbs_units]
      simp only [Binary64.units_neg_iff, hzero, ne_eq, not_false_eq_true, and_true]
    rw [htext]
    dsimp only
    rw [if_neg (text_ofUnits_ne hunits), String.toList_ofList]

/-- The text of a finite amount is the shortest notation of its value, rounded to the nearest unit
of the eighth decimal place, ties to even. It has a minus only if what it says is below zero, and a
point only between a digit and decimals that do not end in a zero. So two amounts look alike exactly
if they are rounded to the same unit. -/
theorem amounts_alike {x y : Binary64} (hx : x.isFinite = true) (hy : y.isFinite = true) :
    (∃ n : ℤ, IsNearest (x.exact * 10 ^ 8) n ∧
      readDecimal? (formatAmount x).toList = some ((n : ℚ) / 10 ^ 8) ∧
      (∃ d : PlainDecimal, d.text = (formatAmount x).toList ∧ d.whole = n.natAbs / 10 ^ 8 ∧
        d.decimals.length ≤ 8) ∧
      (∀ d : PlainDecimal, d.text = (formatAmount x).toList ↔ d.value = n / 10 ^ 8) ∧
      ('-' ∈ (formatAmount x).toList ↔ n < 0) ∧
      ∀ before after, (formatAmount x).toList = before ++ '.' :: after →
        (∃ c ∈ before.getLast?, c.isDigit = true) ∧ after ≠ [] ∧
          after.getLast? ≠ some '0') ∧
    (formatAmount x = formatAmount y ↔
      ∃ n : ℤ, IsNearest (x.exact * 10 ^ 8) n ∧ IsNearest (y.exact * 10 ^ 8) n) := by
  have hnearest := Binary64.isNearest_units 8
  constructor
  · let d := PlainDecimal.ofUnits (x.units 8)
    have hvalue : d.value = (x.units 8 : ℚ) / 10 ^ 8 := PlainDecimal.value_ofUnits _
    rw [toList_formatAmount hx]
    refine ⟨x.units 8, hnearest x, ?_, ⟨d, rfl, rfl, length_amountDecimals_le _⟩, ?_, ?_, ?_⟩
    · rw [← hvalue]
      exact d.readDecimal?_text
    · intro e
      rw [← hvalue]
      exact PlainDecimal.text_eq_iff
    · exact d.minus_mem_text_iff.trans decide_eq_true_iff
    · intro before after h
      obtain ⟨hsome, rfl, rfl⟩ := (d.text_eq_append_point_iff before after).1 h
      exact ⟨exists_getLast?_append_decimalDigits _ _, hsome, d.last_ne_zero⟩
  · rw [← String.toList_inj, toList_formatAmount hx, toList_formatAmount hy,
      PlainDecimal.text_eq_iff, PlainDecimal.value_ofUnits, PlainDecimal.value_ofUnits,
      div_left_inj' (by norm_num), Int.cast_inj]
    constructor
    · intro h
      exact ⟨x.units 8, hnearest x, h ▸ hnearest y⟩
    · rintro ⟨n, hxn, hyn⟩
      exact ((hnearest x).unique hxn).trans (hyn.unique (hnearest y))

/-- A thousandth of a millionth below zero looks like zero, which is the unit nearest to both. -/
theorem amount_just_below_zero :
    let loss : Binary64 := ⟨0xBE112E0BE826D695⟩
    loss.isFinite = true ∧ Binary64.zero.isFinite = true ∧ formatAmount loss = "0" ∧
      ('-' ∈ (formatAmount loss).toList ↔ loss.units 8 < 0) ∧
      ∃ n : ℤ, IsNearest (loss.exact * 10 ^ 8) n ∧ IsNearest (Binary64.zero.exact * 10 ^ 8) n := by
  intro loss
  have hloss : loss.isFinite = true := by decide
  have hzero : Binary64.zero.isFinite = true := by decide
  have halike : formatAmount loss = formatAmount .zero := by decide +kernel
  obtain ⟨⟨n, hnearest, _, _, _, hminus, _⟩, htexts⟩ := amounts_alike hloss hzero
  rw [hnearest.unique (Binary64.isNearest_units 8 loss)] at hminus
  exact ⟨hloss, hzero, by decide +kernel, hminus, htexts.1 halike⟩

-- One hundred keeps its zeros, and a half goes to the even neighbour.
example : formatAmount ⟨0x4059000000000000⟩ = "100" := by decide +kernel

example : formatAmount ⟨0x3F60000000000000⟩ = "0.00195312" := by decide +kernel

end FileMarket
