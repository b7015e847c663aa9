import FileMarket.Calendar.Reader
import FileMarket.Proofs.Text.Blank
import FileMarket.Proofs.Text.Digits

/-!
# Printed dates

A date is read back from its text (`Date.parse?_print`), whatever its year: one with a sign ends
where its digits end, one without has exactly four. Each part of a form takes the text of that part
off the front and leaves what follows.
-/

set_option autoImplicit false

namespace FileMarket.Date

open FileMarket.Text

/-- What follows a number does not go on with a digit. -/
def EndsNumber (rest : List Char) : Prop := ∀ c, rest.head? = some c → c.isDigit = false

theorem endsNumber_cons {c : Char} (h : c.isDigit = false) (rest : List Char) :
    EndsNumber (c :: rest) := by
  intro d hd
  obtain rfl := Option.some.inj hd
  exact h

/-! ## Numbers -/

/-- Digits are taken as a whole when they end with the width or before what follows. -/
theorem takeNumber_append {width : Nat} {ds rest : List Char}
    (hdigits : ∀ c ∈ ds, c.isDigit = true) (hsome : ds ≠ []) (hwidth : ds.length ≤ width)
    (hend : ds.length = width ∨ EndsNumber rest) :
    takeNumber width (ds ++ rest) = some (digitsValue ds, rest) := by
  have hrest : (rest.take (width - ds.length)).takeWhile Char.isDigit = [] := by
    rcases hend with hend | hend
    · rw [hend, Nat.sub_self]
      rfl
    · cases rest with
      | nil => rw [List.take_nil, List.takeWhile_nil]
      | cons c rest =>
        cases width - ds.length with
        | zero => rfl
        | succ k => exact List.takeWhile_cons_of_neg (by simp [hend c rfl])
  have hspan : ((ds ++ rest).take width).takeWhile Char.isDigit = ds := by
    rw [List.take_append, List.take_of_length_le hwidth, List.takeWhile_append_of_pos hdigits,
      hrest, List.append_nil]
  unfold takeNumber
  rw [hspan]
  simp [hsome]

theorem trimStartChars_append_of_isDigit {ds : List Char} (hdigits : ∀ c ∈ ds, c.isDigit = true)
    (hsome : ds ≠ []) (rest : List Char) : trimStartChars (ds ++ rest) = ds ++ rest := by
  cases ds with
  | nil => exact absurd rfl hsome
  | cons c ds =>
    have hblank := isBlank_of_isDigit (hdigits c List.mem_cons_self)
    exact List.dropWhile_cons_of_neg (by simp [hblank])

/-- A number of at most two digits, as months and days are. -/
theorem takeNumber_padded_two {n : Nat} (h : n < 100) (rest : List Char) :
    takeNumber 2 (trimStartChars (padded 2 n ++ rest)) = some (n, rest) := by
  have hlength : (padded 2 n).length = 2 := length_padded (by decide) h
  rw [trimStartChars_append_of_isDigit (fun _ => isDigit_of_mem_padded) (padded_ne_nil 2 n),
    takeNumber_append (fun _ => isDigit_of_mem_padded) (padded_ne_nil 2 n) hlength.le
      (Or.inl hlength), digitsValue_padded]

/-! ## Years -/

/-- After a sign a year has as many digits as there are. -/
theorem takeNumber_signed (n : Nat) {rest : List Char} (hend : EndsNumber rest) :
    takeNumber (padded 4 n ++ rest).length (padded 4 n ++ rest) = some (n, rest) := by
  rw [takeNumber_append (fun _ => isDigit_of_mem_padded) (padded_ne_nil 4 n)
    (by rw [List.length_append]; exact Nat.le_add_right _ _) (Or.inr hend), digitsValue_padded]

/-- A year that begins with a digit has no sign. -/
theorem takeYear_of_isDigit {ds rest : List Char} (hdigits : ∀ c ∈ ds, c.isDigit = true)
    (hsome : ds ≠ []) : takeYear (ds ++ rest) =
      (takeNumber 4 (ds ++ rest)).map fun (n, rest) => ((n : Int), rest) := by
  have htrim := trimStartChars_append_of_isDigit hdigits hsome rest
  cases ds with
  | nil => exact absurd rfl hsome
  | cons c ds =>
    have hdigit : c.isDigit = true := hdigits c List.mem_cons_self
    unfold takeYear
    rw [htrim]
    split
    · rename_i heq
      obtain rfl : c = '-' := (List.cons.inj heq).1
      cases hdigit
    · rename_i heq
      obtain rfl : c = '+' := (List.cons.inj heq).1
      cases hdigit
    · rfl

theorem takeYear_minus (rest : List Char) : takeYear ('-' :: rest) =
    (takeNumber rest.length rest).map fun (n, rest) => (-(n : Int), rest) := rfl

theorem takeYear_plus (rest : List Char) : takeYear ('+' :: rest) =
    (takeNumber rest.length rest).map fun (n, rest) => ((n : Int), rest) := rfl

theorem takeYear_yearText (year : Int) {rest : List Char} (hend : EndsNumber rest) :
    takeYear (yearText year ++ rest) = some (year, rest) := by
  unfold yearText
  split
  · have hyear : -(year.natAbs : Int) = year := by omega
    rw [List.cons_append, takeYear_minus, takeNumber_signed _ hend, Option.map_some]
    exact congrArg (fun y => some (y, rest)) hyear
  · have hyear : (year.natAbs : Int) = year := by omega
    split
    · rw [List.cons_append, takeYear_plus, takeNumber_signed _ hend, Option.map_some]
      exact congrArg (fun y => some (y, rest)) hyear
    · -- A year without a sign fills its four digits.
      have hlength : (padded 4 year.natAbs).length = 4 := length_padded (by decide) (by omega)
      rw [takeYear_of_isDigit (fun _ => isDigit_of_mem_padded) (padded_ne_nil 4 _),
        takeNumber_append (fun _ => isDigit_of_mem_padded) (padded_ne_nil 4 _) hlength.le
          (Or.inl hlength), digitsValue_padded, Option.map_some]
      exact congrArg (fun y => some (y, rest)) hyear

/-! ## Parts of a form -/

section Parts

variable (draft : Draft) {rest : List Char}

theorem takePart_year (year : Int) (hend : EndsNumber rest) :
    takePart draft (yearText year ++ rest) .year =
      some (⟨some year, draft.month, draft.day⟩, rest) := by
  rw [takePart, takeYear_yearText year hend]
  rfl

theorem takePart_month {month : Nat} (h : month < 100) :
    takePart draft (padded 2 month ++ rest) .month =
      some (⟨draft.year, some month, draft.day⟩, rest) := by
  rw [takePart, takeNumber_padded_two h]
  rfl

theorem takePart_day {day : Nat} (h : day < 100) :
    takePart draft (padded 2 day ++ rest) .day =
      some (⟨draft.year, draft.month, some day⟩, rest) := by
  rw [takePart, takeNumber_padded_two h]
  rfl

theorem takePart_sign (c : Char) : takePart draft (c :: rest) (.sign c) = some (draft, rest) :=
  if_pos rfl

theorem takeParts_cons {draft draft' : Draft} {s s' : List Char} {part : Part} {parts : List Part}
    (h : takePart draft s part = some (draft', s')) :
    takeParts draft s (part :: parts) = takeParts draft' s' parts := by
  rw [takeParts, h]
  rfl

end Parts

/-! ## The printed form -/

theorem of?_eq (d : Date) : of? d.year d.month d.day = some d := dif_pos d.isDate

/-- A month has at most 31 days. -/
theorem daysInMonth_le (year : Int) (month : Nat) : daysInMonth year month ≤ 31 := by
  unfold daysInMonth
  split
  · split <;> decide
  all_goals decide

theorem year_bounds (d : Date) : firstYear ≤ d.year ∧ d.year ≤ lastYear := by
  obtain ⟨hlow, hhigh, -⟩ := d.isDate
  exact ⟨hlow, hhigh⟩

theorem month_bounds (d : Date) : 1 ≤ d.month ∧ d.month ≤ 12 := by
  obtain ⟨-, -, hlow, hhigh, -⟩ := d.isDate
  exact ⟨hlow, hhigh⟩

/-- A date lies in its month. -/
theorem day_bounds (d : Date) : 1 ≤ d.day ∧ d.day ≤ daysInMonth d.year d.month := by
  obtain ⟨-, -, -, -, hday⟩ := d.isDate
  exact hday

theorem day_le (d : Date) : d.day ≤ 31 := d.day_bounds.2.trans (daysInMonth_le d.year d.month)

theorem month_lt (d : Date) : d.month < 100 := d.month_bounds.2.trans_lt (by decide)

theorem day_lt (d : Date) : d.day < 100 := d.day_le.trans_lt (by decide)

/-- A date with its year first and a sign between its parts. -/
def yearFirst (c : Char) (d : Date) : List Char :=
  yearText d.year ++ c :: (padded 2 d.month ++ c :: padded 2 d.day)

theorem toList_print (d : Date) : d.print.toList = d.yearFirst '-' := by
  rw [print, String.toList_ofList, List.append_assoc, List.cons_append]
  rfl

theorem takeParts_yearFirst {c : Char} (hc : c.isDigit = false) (d : Date) (rest : List Char) :
    takeParts ⟨none, none, none⟩ (d.yearFirst c ++ rest)
      [.year, .sign c, .month, .sign c, .day] =
      some (⟨some d.year, some d.month, some d.day⟩, rest) := by
  rw [yearFirst, List.append_assoc, List.cons_append, List.append_assoc, List.cons_append,
    takeParts_cons (takePart_year _ _ (endsNumber_cons hc _)),
    takeParts_cons (takePart_sign _ _), takeParts_cons (takePart_month _ d.month_lt),
    takeParts_cons (takePart_sign _ _), takeParts_cons (takePart_day _ d.day_lt)]
  rfl

theorem ofForm?_yearFirst {c : Char} (hc : c.isDigit = false) (d : Date) :
    ofForm? [.year, .sign c, .month, .sign c, .day] (d.yearFirst c) = some d := by
  have hparts := takeParts_yearFirst hc d []
  rw [List.append_nil] at hparts
  unfold ofForm?
  rw [hparts]
  exact d.of?_eq

theorem isBlank_of_mem_yearText (year : Int) : ∀ c ∈ yearText year, isBlank c = false := by
  have hsigned : ∀ sign, isBlank sign = false →
      ∀ c ∈ sign :: padded 4 year.natAbs, isBlank c = false := fun sign hsign =>
    List.forall_mem_cons.2 ⟨hsign, fun _ => isBlank_of_mem_padded⟩
  unfold yearText
  split
  · exact hsigned '-' (by decide)
  split
  · exact hsigned '+' (by decide)
  · exact fun _ => isBlank_of_mem_padded

/-- A sign between texts without blanks makes a text without blanks. -/
theorem isBlank_of_mem_joined {s t : List Char} {sign : Char} (hs : ∀ c ∈ s, isBlank c = false)
    (hsign : isBlank sign = false) (ht : ∀ c ∈ t, isBlank c = false) :
    ∀ c ∈ s ++ sign :: t, isBlank c = false :=
  List.forall_mem_append.2 ⟨hs, List.forall_mem_cons.2 ⟨hsign, ht⟩⟩

theorem isBlank_of_mem_yearFirst {sign : Char} (hsign : isBlank sign = false) (d : Date) :
    ∀ c ∈ d.yearFirst sign, isBlank c = false :=
  isBlank_of_mem_joined (isBlank_of_mem_yearText d.year) hsign
    (isBlank_of_mem_joined (fun _ => isBlank_of_mem_padded) hsign fun _ => isBlank_of_mem_padded)

/-- Every date of the calendar is read back from its text. -/
theorem parse?_print (d : Date) : parse? d.print = some d := by
  have htrim : trimChars (d.yearFirst '-') = d.yearFirst '-' :=
    trimChars_eq_self (isBlank_of_mem_yearFirst (by decide) d)
  simp only [parse?, toList_print, htrim, forms, List.findSome?_cons,
    ofForm?_yearFirst (by decide : Char.isDigit '-' = false), Option.some_or]

end FileMarket.Date
