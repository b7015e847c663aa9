import FileMarket.Proofs.Calendar.Print

/-!
# Spellings of a date

A date can be written in three forms of its own and as the date of a time stamp. Each spelling is
read as the date that it spells, with any blanks around it (`parse?_of_spelling`): a form that is
tried too early stops at a sign of another form, or leaves something behind.
-/

set_option autoImplicit false

namespace FileMarket

open Text

/-! ## Time stamps -/

/-- The offset of a clock from universal time: none, or hours and minutes ahead or behind. -/
inductive Offset where
  | universal (letter : Char) (isLetter : letter = 'Z' ∨ letter = 'z')
  | zone (sign : Char) (hour minute : Nat) (isSign : sign = '+' ∨ sign = '-') (hour_lt : hour < 24)
      (minute_lt : minute < 60)

/-- The text of an offset. -/
def Offset.text : Offset → List Char
  | universal letter _ => [letter]
  | zone sign hour minute _ _ _ => sign :: (padded 2 hour ++ ':' :: padded 2 minute)

/-- A time of day with its offset. A minute can have a leap second. -/
structure ClockTime where
  hour : Nat
  minute : Nat
  second : Nat
  /-- The digits of the fraction of a second, if one is written. -/
  fraction : List Char
  offset : Offset
  hour_lt : hour < 24
  minute_lt : minute < 60
  second_le : second ≤ 60
  isDigit : ∀ c ∈ fraction, c.isDigit = true

namespace ClockTime

/-- The text of a fraction, with its point. -/
def fractionText (time : ClockTime) : List Char :=
  if time.fraction = [] then [] else '.' :: time.fraction

/-- The text of a time. -/
def text (time : ClockTime) : List Char :=
  padded 2 time.hour ++ ':' :: (padded 2 time.minute ++ ':' :: (padded 2 time.second ++
    time.fractionText)) ++ time.offset.text

end ClockTime

/-- A date and a time, with a letter T or a space between them. The year has four digits. -/
structure TimeStamp where
  date : Date
  separator : Char
  time : ClockTime
  year_bounds : 0 ≤ date.year ∧ date.year ≤ 9999
  isSeparator : separator = 'T' ∨ separator = 't' ∨ separator = ' '

/-- The text of a time stamp. -/
def TimeStamp.text (stamp : TimeStamp) : List Char :=
  stamp.date.yearFirst '-' ++ stamp.separator :: stamp.time.text

namespace Date

/-- A date with its month first. -/
def monthFirst (d : Date) : List Char :=
  padded 2 d.month ++ '/' :: (padded 2 d.day ++ '/' :: yearText d.year)

/-- The texts that spell a date. -/
inductive Spelling : Date → List Char → Prop
  | dashed (d : Date) : Spelling d (d.yearFirst '-')
  | monthFirst (d : Date) : Spelling d d.monthFirst
  | slashed (d : Date) : Spelling d (d.yearFirst '/')
  | stamped (stamp : TimeStamp) : Spelling stamp.date stamp.text

/-! ## Forms that do not apply -/

theorem takeParts_eq_none {draft : Draft} {s : List Char} {part : Part} {parts : List Part}
    (h : takePart draft s part = none) : takeParts draft s (part :: parts) = none := by
  rw [takeParts, h]
  rfl

theorem ofForm?_eq_none {form : List Part} {s : List Char}
    (h : takeParts ⟨none, none, none⟩ s form = none) : ofForm? form s = none := by
  unfold ofForm?
  rw [h]

/-- A form that does not take up the whole text gives no date. -/
theorem ofForm?_of_rest {form : List Part} {s : List Char} {draft : Draft} {c : Char}
    {rest : List Char} (h : takeParts ⟨none, none, none⟩ s form = some (draft, c :: rest)) :
    ofForm? form s = none := by
  unfold ofForm?
  rw [h]
  simp

theorem takePart_sign_ne (draft : Draft) {c d : Char} (h : d ≠ c) (rest : List Char) :
    takePart draft (d :: rest) (.sign c) = none := if_neg h

/-- After a year a form stops at a sign that is not its own. -/
theorem takeParts_yearFirst_ne {c sign : Char} (hc : c.isDigit = false) (h : c ≠ sign)
    (d : Date) (rest : List Char) (parts : List Part) :
    takeParts ⟨none, none, none⟩ (d.yearFirst c ++ rest) (.year :: .sign sign :: parts) = none := by
  rw [yearFirst, List.append_assoc, List.cons_append,
    takeParts_cons (takePart_year _ _ (endsNumber_cons hc _))]
  exact takeParts_eq_none (takePart_sign_ne _ h _)

/-- A number of two digits that ends there is taken for a year as well. -/
theorem takeYear_padded_two {n : Nat} (h : n < 100) {rest : List Char} (hend : EndsNumber rest) :
    takeYear (padded 2 n ++ rest) = some ((n : Int), rest) := by
  have hlength : (padded 2 n).length = 2 := length_padded (by decide) h
  rw [takeYear_of_isDigit (fun _ => isDigit_of_mem_padded) (padded_ne_nil 2 n),
    takeNumber_append (fun _ => isDigit_of_mem_padded) (padded_ne_nil 2 n)
      (by rw [hlength]; decide) (Or.inr hend), digitsValue_padded, Option.map_some]

/-- No form with the year first reads a date with its month first: it takes the month for the year
and stops at the sign behind it, unless that is its own. -/
theorem takeParts_monthFirst_ne {sign : Char} (h : '/' ≠ sign) (d : Date) (parts : List Part) :
    takeParts ⟨none, none, none⟩ d.monthFirst (.year :: .sign sign :: parts) = none := by
  have hyear : takePart ⟨none, none, none⟩ d.monthFirst .year =
      some (⟨some d.month, none, none⟩, '/' :: (padded 2 d.day ++ '/' :: yearText d.year)) := by
    rw [takePart, Date.monthFirst, takeYear_padded_two d.month_lt (endsNumber_cons (by decide) _)]
    rfl
  rw [takeParts_cons hyear]
  exact takeParts_eq_none (takePart_sign_ne _ h _)

theorem takeNumber_eq_none {s : List Char} (h : EndsNumber s) (width : Nat) :
    takeNumber width s = none := by
  have hnone : (s.take width).takeWhile Char.isDigit = [] := by
    cases s with
    | nil => rw [List.take_nil, List.takeWhile_nil]
    | cons c rest =>
      cases width with
      | zero => rfl
      | succ k => exact List.takeWhile_cons_of_neg (by simp [h c rfl])
  unfold takeNumber
  rw [hnone]
  rfl

/-- A sign is neither blank nor the beginning of a number. -/
theorem takePart_month_of_sign (draft : Draft) {c : Char} (hblank : isBlank c = false)
    (hdigit : c.isDigit = false) (rest : List Char) :
    takePart draft (c :: rest) .month = none := by
  have htrim : trimStartChars (c :: rest) = c :: rest :=
    List.dropWhile_cons_of_neg (by simp [hblank])
  rw [takePart, htrim, takeNumber_eq_none (endsNumber_cons hdigit rest)]
  rfl

/-- The form with the month first does not read a year first: a signed year is no month, and a year
of four digits goes on after two of them. -/
theorem takeParts_month_yearText (year : Int) (rest : List Char) (parts : List Part) :
    takeParts ⟨none, none, none⟩ (yearText year ++ rest) (.month :: .sign '/' :: parts) = none := by
  unfold yearText
  split
  · exact takeParts_eq_none (takePart_month_of_sign _ (by decide) (by decide) _)
  split
  · exact takeParts_eq_none (takePart_month_of_sign _ (by decide) (by decide) _)
  · rename_i hsigned hlong
    have hlength : (padded 4 year.natAbs).length = 4 := length_padded (by decide) (by omega)
    have hdigits : ∀ c ∈ padded 4 year.natAbs, c.isDigit = true :=
      fun _ => isDigit_of_mem_padded
    -- The first two digits are taken for the month, and a third one follows.
    generalize padded 4 year.natAbs = ds at hlength hdigits
    match ds, hlength with
    | [a, b, c, e], _ =>
      have hfront : ∀ x ∈ [a, b], x.isDigit = true := fun x hx =>
        hdigits x (List.mem_append_left [c, e] hx)
      have hc : c.isDigit = true := hdigits c (by simp)
      have htwo : [a, b].length = 2 := rfl
      have htrim : trimStartChars ([a, b] ++ ([c, e] ++ rest)) = [a, b] ++ ([c, e] ++ rest) :=
        trimStartChars_append_of_isDigit hfront (List.cons_ne_nil a [b]) _
      have hmonth : takePart ⟨none, none, none⟩ ([a, b] ++ ([c, e] ++ rest)) .month =
          some (⟨none, some (digitsValue [a, b]), none⟩, [c, e] ++ rest) := by
        rw [takePart, htrim, takeNumber_append hfront (List.cons_ne_nil a [b]) htwo.le
          (Or.inl htwo)]
        rfl
      have hne : c ≠ '/' := by
        rintro rfl
        cases hc
      show takeParts _ ([a, b] ++ ([c, e] ++ rest)) _ = none
      rw [takeParts_cons hmonth]
      exact takeParts_eq_none (takePart_sign_ne _ hne _)

/-! ## The forms of a date -/

theorem ofForm?_monthFirst (d : Date) :
    ofForm? [.month, .sign '/', .day, .sign '/', .year] d.monthFirst = some d := by
  have hend : EndsNumber [] := fun c hc => by cases hc
  have hparts : takeParts ⟨none, none, none⟩ d.monthFirst
      [.month, .sign '/', .day, .sign '/', .year] =
      some (⟨some d.year, some d.month, some d.day⟩, []) := by
    rw [Date.monthFirst, ← List.append_nil (yearText d.year),
      takeParts_cons (takePart_month _ d.month_lt), takeParts_cons (takePart_sign _ _),
      takeParts_cons (takePart_day _ d.day_lt), takeParts_cons (takePart_sign _ _),
      takeParts_cons (takePart_year _ _ hend)]
    rfl
  unfold ofForm?
  rw [hparts]
  exact d.of?_eq

/-! ## Time stamps -/

/-- A number is read from its padded text, if it fits in there and is within the bounds. -/
theorem takeExactly_padded (width low high : Nat) {n : Nat} (hwidth : 0 < width) (hlow : low ≤ n)
    (hhigh : n ≤ high) (hfits : high < 10 ^ width) (rest : List Char) :
    takeExactly width low high (padded width n ++ rest) = some (n, rest) := by
  have hlength : (padded width n).length = width := length_padded hwidth (hhigh.trans_lt hfits)
  have htake : (padded width n ++ rest).take width = padded width n := List.take_left' hlength
  have hdrop : (padded width n ++ rest).drop width = rest := List.drop_left' hlength
  have hdigits : (padded width n).all Char.isDigit = true :=
    List.all_eq_true.2 fun _ => isDigit_of_mem_padded
  unfold takeExactly
  simp only [htake, hdrop, hlength, hdigits, digitsValue_padded, hlow, hhigh, and_self, if_true]

/-- Hours, minutes and seconds. -/
theorem takeExactly_two {high n : Nat} (h : n ≤ high) (hfits : high < 100) (rest : List Char) :
    takeExactly 2 0 high (padded 2 n ++ rest) = some (n, rest) :=
  takeExactly_padded 2 0 high (by decide) (Nat.zero_le n) h hfits rest

theorem after?_cons (c : Char) (rest : List Char) : after? c (c :: rest) = some rest := if_pos rfl

/-- No offset begins with a digit or a point. -/
theorem exists_offset_text_eq_cons (offset : Offset) :
    ∃ c rest, offset.text = c :: rest ∧ c.isDigit = false ∧ c ≠ '.' := by
  cases offset with
  | universal letter isLetter =>
    refine ⟨letter, [], rfl, ?_⟩
    rcases isLetter with rfl | rfl <;> decide
  | zone sign hour minute isSign =>
    refine ⟨sign, _, rfl, ?_⟩
    rcases isSign with rfl | rfl <;> decide

theorem isOffset_text (offset : Offset) : isOffset offset.text = true := by
  cases offset with
  | universal letter isLetter => rcases isLetter with rfl | rfl <;> rfl
  | zone sign hour minute isSign hour_lt minute_lt =>
    have hhour := takeExactly_two (Nat.le_of_lt_succ hour_lt) (by decide) (':' :: padded 2 minute)
    have hminute := takeExactly_two (Nat.le_of_lt_succ minute_lt) (by decide) []
    rw [List.append_nil] at hminute
    rcases isSign with rfl | rfl <;>
      simp [Offset.text, isOffset, hhour, after?_cons, hminute]

theorem afterFraction?_text (time : ClockTime) :
    afterFraction? (time.fractionText ++ time.offset.text) = some time.offset.text := by
  obtain ⟨c, rest, hoffset, hdigit, hpoint⟩ := exists_offset_text_eq_cons time.offset
  have hfraction := time.isDigit
  unfold ClockTime.fractionText
  cases hdigits : time.fraction with
  | nil =>
    rw [if_pos rfl, List.nil_append, hoffset]
    unfold afterFraction?
    split
    · rename_i heq
      exact absurd (List.cons.inj heq).1 hpoint
    · rename_i heq
      exact absurd (List.cons.inj heq).1 hpoint
    · rfl
  | cons d ds =>
    rw [hdigits] at hfraction
    have hdrop : (ds ++ time.offset.text).dropWhile Char.isDigit = time.offset.text := by
      rw [List.dropWhile_append_of_pos fun x hx => hfraction x (List.mem_cons_of_mem d hx), hoffset]
      exact List.dropWhile_cons_of_neg (by simp [hdigit])
    rw [if_neg (List.cons_ne_nil d ds)]
    show (if d.isDigit then some ((ds ++ time.offset.text).dropWhile Char.isDigit) else none) = _
    rw [if_pos (hfraction d List.mem_cons_self), hdrop]

theorem isTime_text (time : ClockTime) : isTime time.text = true := by
  have hhour := takeExactly_two (Nat.le_of_lt_succ time.hour_lt) (by decide)
  have hminute := takeExactly_two (Nat.le_of_lt_succ time.minute_lt) (by decide)
  have hsecond := takeExactly_two time.second_le (by decide)
  simp [isTime, ClockTime.text, hhour, after?_cons, hminute, hsecond, afterFraction?_text,
    isOffset_text]

/-- A year of four digits has no sign. -/
theorem yearText_eq_padded {year : Int} (h : 0 ≤ year ∧ year ≤ 9999) :
    yearText year = padded 4 year.natAbs := by
  rw [yearText, if_neg (by omega), if_neg (by omega)]

theorem ofTimeStamp?_text (stamp : TimeStamp) : ofTimeStamp? stamp.text = some stamp.date := by
  obtain ⟨date, separator, time, hbounds, hseparator⟩ := stamp
  have hnat : (date.year.natAbs : Int) = date.year := Int.natAbs_of_nonneg hbounds.1
  have hyear := takeExactly_padded 4 0 9999 (by decide) (Nat.zero_le date.year.natAbs)
    (by omega) (by decide)
  have hmonth := takeExactly_padded 2 1 12 (by decide) date.month_bounds.1 date.month_bounds.2
    (by decide)
  have hday := takeExactly_padded 2 1 31 (by decide) date.day_bounds.1 date.day_le (by decide)
  simp only [ofTimeStamp?, TimeStamp.text, yearFirst, yearText_eq_padded hbounds, List.append_assoc,
    List.cons_append, hyear, Option.bind_eq_bind, Option.bind_some, after?_cons, hmonth, hday,
    hseparator, isTime_text, hnat, and_self, if_true, of?_eq]

/-! ## Every spelling -/

/-- No other form reads a date with its month first. -/
theorem findSome?_monthFirst (d : Date) : forms.findSome? (ofForm? · d.monthFirst) = some d := by
  have hdashed : ofForm? [.year, .sign '-', .month, .sign '-', .day] d.monthFirst = none :=
    ofForm?_eq_none (takeParts_monthFirst_ne (by decide) d _)
  simp only [forms, List.findSome?_cons, hdashed, ofForm?_monthFirst]

theorem findSome?_yearFirst (d : Date) : forms.findSome? (ofForm? · (d.yearFirst '/')) = some d := by
  have hdigit : Char.isDigit '/' = false := by decide
  have hdashed : ofForm? [.year, .sign '-', .month, .sign '-', .day] (d.yearFirst '/') = none := by
    rw [← List.append_nil (d.yearFirst '/')]
    exact ofForm?_eq_none (takeParts_yearFirst_ne hdigit (by decide) d [] _)
  have hmonthFirst :
      ofForm? [.month, .sign '/', .day, .sign '/', .year] (d.yearFirst '/') = none :=
    ofForm?_eq_none (takeParts_month_yearText d.year _ _)
  simp only [forms, List.findSome?_cons, hdashed, hmonthFirst, ofForm?_yearFirst hdigit]

/-- No form of a date takes up a time stamp: the time is left behind, or the sign in the date is not
the form's. -/
theorem findSome?_text (stamp : TimeStamp) : forms.findSome? (ofForm? · stamp.text) = none := by
  have hdigit : Char.isDigit '-' = false := by decide
  have hdashed : ofForm? [.year, .sign '-', .month, .sign '-', .day] stamp.text = none :=
    ofForm?_of_rest (takeParts_yearFirst hdigit stamp.date (stamp.separator :: stamp.time.text))
  have hmonthFirst : ofForm? [.month, .sign '/', .day, .sign '/', .year] stamp.text = none := by
    rw [TimeStamp.text, yearFirst, List.append_assoc]
    exact ofForm?_eq_none (takeParts_month_yearText stamp.date.year _ _)
  have hslashed : ofForm? [.year, .sign '/', .month, .sign '/', .day] stamp.text = none :=
    ofForm?_eq_none (takeParts_yearFirst_ne hdigit (by decide) stamp.date _ _)
  simp only [forms, List.findSome?_cons, hdashed, hmonthFirst, hslashed, List.findSome?_nil]

theorem isBlank_of_mem_monthFirst (d : Date) : ∀ c ∈ d.monthFirst, isBlank c = false :=
  isBlank_of_mem_joined (fun _ => isBlank_of_mem_padded) (by decide)
    (isBlank_of_mem_joined (fun _ => isBlank_of_mem_padded) (by decide)
      (isBlank_of_mem_yearText d.year))

theorem isBlank_of_mem_offset (offset : Offset) : ∀ c ∈ offset.text, isBlank c = false := by
  cases offset with
  | universal letter isLetter =>
    intro c h
    obtain rfl := List.mem_singleton.1 h
    rcases isLetter with rfl | rfl <;> decide
  | zone sign hour minute isSign =>
    refine List.forall_mem_cons.2 ⟨?_, isBlank_of_mem_joined (fun _ => isBlank_of_mem_padded)
      (by decide) fun _ => isBlank_of_mem_padded⟩
    rcases isSign with rfl | rfl <;> decide

/-- A time stamp begins with its year and ends with its offset. -/
theorem trimChars_text (stamp : TimeStamp) : trimChars stamp.text = stamp.text := by
  obtain ⟨first, rest, hoffset, -⟩ := exists_offset_text_eq_cons stamp.time.offset
  refine trimChars_of_ends (fun c hc => ?_) fun c hc => ?_
  · have hyear : stamp.date.yearFirst '-' ≠ [] := List.append_ne_nil_of_right_ne_nil _ (by simp)
    rw [TimeStamp.text, List.head?_append_of_ne_nil _ hyear] at hc
    exact isBlank_of_mem_yearFirst (by decide) _ c (List.mem_of_head? hc)
  · have hlast : stamp.text.getLast? = stamp.time.offset.text.getLast? := by
      rw [TimeStamp.text, ClockTime.text, ← List.cons_append, ← List.append_assoc, hoffset,
        List.getLast?_append_cons, List.getLast?_cons]
    exact isBlank_of_mem_offset _ c (List.mem_of_getLast? (hlast ▸ hc))

/-- A spelling begins and ends with a sign, a letter or a digit. -/
theorem trimChars_spelling {d : Date} {s : List Char} (h : Spelling d s) : trimChars s = s := by
  cases h with
  | dashed => exact trimChars_eq_self (isBlank_of_mem_yearFirst (by decide) d)
  | monthFirst => exact trimChars_eq_self (isBlank_of_mem_monthFirst d)
  | slashed => exact trimChars_eq_self (isBlank_of_mem_yearFirst (by decide) d)
  | stamped stamp => exact trimChars_text stamp

theorem parse?_ofList (s : List Char) : parse? (String.ofList s) =
    (forms.findSome? (ofForm? · (trimChars s))).or (ofTimeStamp? (trimChars s)) := by
  unfold parse?
  rw [String.toList_ofList]

/-- Every spelling of a date is read as that date, with any blanks around it: with its year first and
dashes or slashes, with its month first, and as the date of a time stamp, whatever the time and the
offset are. -/
theorem parse?_of_spelling {d : Date} {s before after : List Char} (h : Spelling d s)
    (hbefore : ∀ c ∈ before, isBlank c = true) (hafter : ∀ c ∈ after, isBlank c = true) :
    parse? (String.ofList (before ++ s ++ after)) = some d := by
  rw [parse?_ofList, trimChars_append hbefore hafter, trimChars_spelling h]
  cases h with
  | dashed =>
    simp only [forms, List.findSome?_cons, ofForm?_yearFirst (by decide : Char.isDigit '-' = false),
      Option.some_or]
  | monthFirst => rw [findSome?_monthFirst, Option.some_or]
  | slashed => rw [findSome?_yearFirst, Option.some_or]
  | stamped stamp => rw [findSome?_text, Option.none_or, ofTimeStamp?_text]

/-- A leap second, with a fraction, a small separator and an offset behind universal time. -/
def leapStamp : TimeStamp where
  date := ⟨2024, 2, 29, by decide⟩
  separator := 't'
  time :=
    { hour := 23
      minute := 59
      second := 60
      fraction := ['2', '5']
      offset := .zone '-' 0 30 (Or.inr rfl) (by decide) (by decide)
      hour_lt := by decide
      minute_lt := by decide
      second_le := le_rfl
      isDigit := by simp }
  year_bounds := by decide
  isSeparator := Or.inr (Or.inl rfl)

theorem leapStamp_read : leapStamp.text = "2024-02-29t23:59:60.25-00:30".toList ∧
    Spelling ⟨2024, 2, 29, by decide⟩ leapStamp.text ∧
    (∀ c ∈ [' ', '\u00a0'], isBlank c = true) ∧ (∀ c ∈ ['\n'], isBlank c = true) ∧
    parse? (String.ofList ([' ', '\u00a0'] ++ leapStamp.text ++ ['\n'])) =
      some ⟨2024, 2, 29, by decide⟩ := by
  have hbefore : ∀ c ∈ [' ', '\u00a0'], isBlank c = true := List.all_eq_true.1 (by decide)
  have hbehind : ∀ c ∈ ['\n'], isBlank c = true := List.all_eq_true.1 (by decide)
  exact ⟨by decide, .stamped leapStamp, hbefore, hbehind,
    parse?_of_spelling (.stamped leapStamp) hbefore hbehind⟩

end Date

end FileMarket
