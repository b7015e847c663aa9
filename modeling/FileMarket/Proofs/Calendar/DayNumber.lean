import FileMarket.Proofs.Calendar.Print

/-!
# Numbers of days and months

The days of the calendar are numbered one after the other, by the leap years before a year, the
months before a month and the day. The numbers are in the order of the dates
(`le_iff_dayNumber`), the day before has the number before (`dayNumber_previous`), and going some
days back takes that many off, down to the first day of the calendar (`dayNumber_daysBack`).

Months are numbered as well. Going some months back takes that many off the number of the month and
holds the day within it, so it never goes past a later date (`monthsBack_le_monthsBack`).
-/

set_option autoImplicit false

namespace FileMarket

/-! ## Days of years and months -/

/-- The number of days of a year. -/
def daysInYear (year : Int) : Nat := if isLeapYear year then 366 else 365

/-- The days from the beginning of the year 1 to the beginning of a year. -/
def daysBeforeYear (year : Int) : Int :=
  365 * (year - 1) + (year - 1) / 4 - (year - 1) / 100 + (year - 1) / 400

/-- The days of a year before one of its months. -/
def daysBeforeMonth (year : Int) : Nat → Nat
  | 0 | 1 => 0
  | month + 2 => daysBeforeMonth year (month + 1) + daysInMonth year (month + 1)

theorem daysInMonth_pos (year : Int) (month : Nat) : 1 ≤ daysInMonth year month := by
  unfold daysInMonth
  split
  · split <;> decide
  all_goals decide

theorem isLeapYear_iff (year : Int) :
    isLeapYear year = true ↔ year % 4 = 0 ∧ (year % 100 ≠ 0 ∨ year % 400 = 0) := by
  simp [isLeapYear]

theorem daysBeforeYear_succ (year : Int) :
    daysBeforeYear (year + 1) = daysBeforeYear year + daysInYear year := by
  have hleap := isLeapYear_iff year
  unfold daysBeforeYear daysInYear
  split
  · rename_i h
    obtain ⟨hfour, hcentury⟩ := hleap.1 h
    push_cast
    omega
  · rename_i h
    have hcommon : ¬ (year % 4 = 0 ∧ (year % 100 ≠ 0 ∨ year % 400 = 0)) := mt hleap.2 h
    push_cast
    omega

theorem daysBeforeYear_mono : Monotone daysBeforeYear := by
  refine monotone_int_of_le_succ fun year => ?_
  rw [daysBeforeYear_succ]
  omega

theorem daysBeforeMonth_succ (year : Int) {month : Nat} (h : 1 ≤ month) :
    daysBeforeMonth year (month + 1) = daysBeforeMonth year month + daysInMonth year month := by
  obtain ⟨m, rfl⟩ := Nat.exists_eq_add_of_le' h
  rfl

theorem daysBeforeMonth_mono (year : Int) : Monotone (daysBeforeMonth year) := by
  refine monotone_nat_of_le_succ fun month => ?_
  cases month with
  | zero => exact Nat.zero_le _
  | succ m => exact Nat.le_add_right _ _

/-- The twelve months make up the year. -/
theorem daysBeforeMonth_thirteen (year : Int) : daysBeforeMonth year 13 = daysInYear year := by
  simp only [daysBeforeMonth, daysInMonth, daysInYear]
  split <;> rfl

namespace Date

open FileMarket.Text

/-! ## The number of a day -/

/-- The days of the calendar, numbered one after the other. The first of January of the year 1 has
the number 1. -/
def dayNumber (d : Date) : Int :=
  daysBeforeYear d.year + daysBeforeMonth d.year d.month + d.day

/-- A date comes before the months that follow its own. -/
theorem daysBeforeMonth_add_day_le (d : Date) {month : Nat} (h : d.month < month) :
    daysBeforeMonth d.year d.month + d.day ≤ daysBeforeMonth d.year month := by
  have hnext := daysBeforeMonth_mono d.year (Nat.succ_le_of_lt h)
  rw [Nat.succ_eq_add_one, daysBeforeMonth_succ d.year d.month_bounds.1] at hnext
  have hday := d.day_bounds.2
  omega

/-- A date comes before the years that follow its own. -/
theorem dayNumber_le_daysBeforeYear (d : Date) {year : Int} (h : d.year < year) :
    d.dayNumber ≤ daysBeforeYear year := by
  have hnext := daysBeforeYear_mono (Int.add_one_le_of_lt h)
  rw [daysBeforeYear_succ, ← daysBeforeMonth_thirteen] at hnext
  have hmonth : daysBeforeMonth d.year d.month + d.day ≤ daysBeforeMonth d.year 13 :=
    d.daysBeforeMonth_add_day_le (Nat.lt_succ_of_le d.month_bounds.2)
  unfold dayNumber
  omega

theorem dayNumber_lt_of_year_lt {a b : Date} (h : a.year < b.year) : a.dayNumber < b.dayNumber := by
  have hbefore := a.dayNumber_le_daysBeforeYear h
  have hday := b.day_bounds.1
  unfold dayNumber at hbefore ⊢
  omega

theorem dayNumber_lt_of_month_lt {a b : Date} (hyear : a.year = b.year) (h : a.month < b.month) :
    a.dayNumber < b.dayNumber := by
  have hbefore := a.daysBeforeMonth_add_day_le h
  have hday := b.day_bounds.1
  unfold dayNumber
  rw [← hyear]
  omega

/-- Dates are ordered as their numbers are. -/
theorem compare_eq_compare_dayNumber (a b : Date) :
    compare a b = Ord.compare a.dayNumber b.dayNumber := by
  refine compare_then_eq dayNumber_lt_of_year_lt dayNumber_lt_of_year_lt fun hyear => ?_
  refine compare_then_eq (dayNumber_lt_of_month_lt hyear) (dayNumber_lt_of_month_lt hyear.symm)
    fun hmonth => ?_
  -- In one month the numbers differ as the days do.
  unfold dayNumber
  rw [hyear, hmonth]
  apply compare_eq_compare <;> omega

theorem le_iff_dayNumber (a b : Date) : a.le b = true ↔ a.dayNumber ≤ b.dayNumber := by
  rw [le, compare_eq_compare_dayNumber, ← Ordering.ne_gt_iff_isLE, ← ne_eq, compare_le_iff_le]

/-- Different dates have different numbers. -/
theorem dayNumber_inj {a b : Date} : a.dayNumber = b.dayNumber ↔ a = b := by
  refine ⟨fun h => ?_, fun h => h ▸ rfl⟩
  have hcompare : compare a b = .eq := by
    rw [compare_eq_compare_dayNumber, h, compare_eq_iff_eq]
  unfold compare at hcompare
  obtain ⟨hyear, hmonthDay⟩ := Ordering.then_eq_eq.1 hcompare
  obtain ⟨hmonth, hday⟩ := Ordering.then_eq_eq.1 hmonthDay
  rw [compare_eq_iff_eq] at hyear hmonth hday
  cases a
  cases b
  simp_all

theorem of?_of_isDate {year : Int} {month day : Nat} (h : IsDate year month day) :
    of? year month day = some ⟨year, month, day, h⟩ := dif_pos h

/-! ## Going back by days -/

/-- No date comes before the first. -/
theorem dayNumber_first_le (d : Date) : first.dayNumber ≤ d.dayNumber := by
  have hyear := daysBeforeYear_mono d.year_bounds.1
  have hday := d.day_bounds.1
  show daysBeforeYear firstYear + (0 : Nat) + (1 : Nat) ≤
    daysBeforeYear d.year + daysBeforeMonth d.year d.month + d.day
  omega

/-- The days before the twelfth month are followed by those of that month. -/
theorem daysBeforeMonth_twelve (year : Int) :
    daysBeforeMonth year 12 + 31 = daysInYear year :=
  (daysBeforeMonth_succ year (by decide)).symm.trans (daysBeforeMonth_thirteen year)

/-- The day before has the number before, unless the calendar begins. -/
theorem dayNumber_previous {d : Date} (h : d ≠ first) :
    d.previous.dayNumber = d.dayNumber - 1 := by
  obtain ⟨year, month, day, hdate⟩ := d
  obtain ⟨hlow, hhigh, hmonth, htwelve, hday, hlast⟩ := id hdate
  unfold previous
  by_cases hinner : 1 < day
  · -- Within a month.
    have hbefore : IsDate year month (day - 1) :=
      ⟨hlow, hhigh, hmonth, htwelve, by omega, by omega⟩
    rw [if_pos hinner, of?_of_isDate hbefore, Option.getD_some]
    show daysBeforeYear year + daysBeforeMonth year month + (day - 1 : Nat) =
      daysBeforeYear year + daysBeforeMonth year month + day - 1
    omega
  · obtain rfl : day = 1 := by omega
    rw [if_neg hinner]
    by_cases hlater : 1 < month
    · -- From the first of a month to the last of the month before.
      obtain ⟨m, rfl⟩ := Nat.exists_eq_add_of_le' hmonth
      have hbefore : IsDate year m (daysInMonth year m) :=
        ⟨hlow, hhigh, by omega, by omega, daysInMonth_pos year m, le_rfl⟩
      rw [if_pos hlater, Nat.add_sub_cancel, of?_of_isDate hbefore, Option.getD_some]
      have hsucc := daysBeforeMonth_succ year (Nat.le_of_lt_succ hlater)
      show daysBeforeYear year + daysBeforeMonth year m + daysInMonth year m =
        daysBeforeYear year + daysBeforeMonth year (m + 1) + (1 : Nat) - 1
      omega
    · -- From the first of a year to the last of the year before.
      obtain rfl : month = 1 := by omega
      have hyear : firstYear ≤ year - 1 := by
        by_contra hbegin
        obtain rfl : year = firstYear := by omega
        exact h rfl
      have hbefore : IsDate (year - 1) 12 31 :=
        ⟨hyear, by omega, by decide, by decide, by decide, le_rfl⟩
      rw [if_neg hlater, of?_of_isDate hbefore, Option.getD_some]
      have hsucc := daysBeforeYear_succ (year - 1)
      rw [sub_add_cancel] at hsucc
      have htwelve := daysBeforeMonth_twelve (year - 1)
      show daysBeforeYear (year - 1) + daysBeforeMonth (year - 1) 12 + (31 : Nat) =
        daysBeforeYear year + (0 : Nat) + (1 : Nat) - 1
      omega

theorem previous_first : first.previous = first := rfl

/-- Going some days back takes them off the number, down to the first day of the calendar. -/
theorem dayNumber_daysBack (n : Nat) (d : Date) :
    (d.daysBack n).dayNumber = max first.dayNumber (d.dayNumber - n) := by
  induction n with
  | zero =>
    have hfirst := d.dayNumber_first_le
    show d.dayNumber = _
    omega
  | succ n ih =>
    show (d.daysBack n).previous.dayNumber = _
    by_cases hfirst : d.daysBack n = first
    · rw [hfirst] at ih ⊢
      rw [previous_first]
      omega
    · have hback := (d.daysBack n).previous.dayNumber_first_le
      rw [dayNumber_previous hfirst] at hback ⊢
      omega

/-! ## Going back by months -/

/-- The months of the calendar, numbered one after the other. -/
def monthNumber (d : Date) : Int := d.year * 12 + (d.month - 1 : Nat)

/-- The number of days of a numbered month. -/
def monthLength (month : Int) : Nat := daysInMonth (month / 12) ((month % 12).toNat + 1)

/-- Dates are ordered by their months first. -/
theorem compare_eq_compare_monthNumber (a b : Date) :
    compare a b =
      (Ord.compare a.monthNumber b.monthNumber).then (Ord.compare a.day b.day) := by
  have ha := a.month_bounds
  have hb := b.month_bounds
  have hmonths : (Ord.compare a.year b.year).then (Ord.compare a.month b.month) =
      Ord.compare a.monthNumber b.monthNumber := by
    unfold monthNumber
    refine compare_then_eq (by omega) (by omega) fun hyear => ?_
    apply compare_eq_compare <;> omega
  rw [compare, ← Ordering.then_assoc, hmonths]

theorem le_iff_monthNumber (a b : Date) : a.le b = true ↔
    a.monthNumber < b.monthNumber ∨ a.monthNumber = b.monthNumber ∧ a.day ≤ b.day := by
  rw [le, compare_eq_compare_monthNumber, Ordering.isLE_then_iff_or, compare_lt_iff_lt,
    compare_eq_iff_eq, ← Ordering.ne_gt_iff_isLE, ← ne_eq, compare_le_iff_le]

/-- Some months back within the calendar: the day is held within the month. -/
theorem monthsBack_of_le {n : Nat} {d : Date} (h : firstYear * 12 ≤ d.monthNumber - n) :
    (d.monthsBack n).monthNumber = d.monthNumber - n ∧
      (d.monthsBack n).day = min d.day (monthLength (d.monthNumber - n)) := by
  have hyear := d.year_bounds
  have hmonth := d.month_bounds
  have hday := d.day_bounds.1
  have hlength : 1 ≤ monthLength (d.monthNumber - n) := daysInMonth_pos _ _
  have hdate : IsDate ((d.monthNumber - n) / 12) (((d.monthNumber - n) % 12).toNat + 1)
      (min d.day (monthLength (d.monthNumber - n))) := by
    unfold monthNumber at h hlength ⊢
    exact ⟨by omega, by omega, by omega, by omega, by omega, min_le_right _ _⟩
  have hback : d.monthsBack n = ⟨_, _, _, hdate⟩ := by
    show (of? _ _ _).getD first = _
    exact congrArg (Option.getD · first) (of?_of_isDate hdate)
  rw [hback]
  refine ⟨?_, rfl⟩
  show (d.monthNumber - n) / 12 * 12 + (((d.monthNumber - n) % 12).toNat + 1 - 1 : Nat) =
    d.monthNumber - n
  omega

/-- Before the calendar begins its first day stands for all days. -/
theorem monthsBack_of_lt {n : Nat} {d : Date} (h : d.monthNumber - n < firstYear * 12) :
    d.monthsBack n = first := by
  have hnone : ¬ IsDate ((d.monthNumber - n) / 12) (((d.monthNumber - n) % 12).toNat + 1)
      (min d.day (monthLength (d.monthNumber - n))) := by
    rintro ⟨hlow, -⟩
    omega
  show (of? _ _ _).getD first = _
  exact congrArg (Option.getD · first) (dif_neg hnone)

theorem first_le (d : Date) : first.le d = true :=
  (le_iff_dayNumber first d).2 d.dayNumber_first_le

/-- Going back by months keeps the order of dates, although it holds days within their months. -/
theorem monthsBack_le_monthsBack (n : Nat) {a b : Date} (h : a.le b = true) :
    (a.monthsBack n).le (b.monthsBack n) = true := by
  rcases lt_or_ge (a.monthNumber - n) (firstYear * 12) with hout | hin
  · rw [monthsBack_of_lt hout]
    exact first_le _
  · rw [le_iff_monthNumber] at h ⊢
    have hin' : firstYear * 12 ≤ b.monthNumber - n := by omega
    obtain ⟨hmonthA, hdayA⟩ := monthsBack_of_le hin
    obtain ⟨hmonthB, hdayB⟩ := monthsBack_of_le hin'
    rcases h with hlt | ⟨heq, hday⟩
    · exact Or.inl (by omega)
    · -- In one month both days are held to the same length.
      rw [hmonthA, hmonthB, hdayA, hdayB, heq]
      exact Or.inr ⟨rfl, min_le_min_right _ hday⟩

/-- Going back never goes forward. -/
theorem monthsBack_le (n : Nat) (d : Date) : (d.monthsBack n).le d = true := by
  rcases lt_or_ge (d.monthNumber - n) (firstYear * 12) with hout | hin
  · rw [monthsBack_of_lt hout]
    exact first_le d
  · obtain ⟨hmonth, hday⟩ := monthsBack_of_le hin
    rw [le_iff_monthNumber, hmonth, hday]
    have hheld := min_le_left d.day (monthLength (d.monthNumber - n))
    omega

/-! ## The ends of a year -/

theorem year_le_of_le {a b : Date} (h : a.le b = true) : a.year ≤ b.year := by
  by_contra hafter
  have hnumber := dayNumber_lt_of_year_lt (not_le.1 hafter)
  have hle := (le_iff_dayNumber a b).1 h
  omega

section Year

variable {year : Int} (hlow : firstYear ≤ year) (hhigh : year ≤ lastYear)
include hlow hhigh

theorem isDate_startOf : IsDate year 1 1 :=
  ⟨hlow, hhigh, le_rfl, by decide, le_rfl, daysInMonth_pos year 1⟩

theorem isDate_endOf : IsDate year 12 31 :=
  ⟨hlow, hhigh, by decide, le_rfl, by decide, le_rfl⟩

theorem startOf_eq : startOf year = ⟨year, 1, 1, isDate_startOf hlow hhigh⟩ := by
  rw [startOf, of?_of_isDate (isDate_startOf hlow hhigh), Option.getD_some]

theorem endOf_eq : endOf year = ⟨year, 12, 31, isDate_endOf hlow hhigh⟩ := by
  rw [endOf, of?_of_isDate (isDate_endOf hlow hhigh), Option.getD_some]

theorem startOf_le_iff (d : Date) : (startOf year).le d = true ↔ year ≤ d.year := by
  have hmonth := d.month_bounds
  have hday := d.day_bounds
  rw [startOf_eq hlow hhigh, le_iff_monthNumber]
  show year * 12 + (0 : Nat) < d.year * 12 + (d.month - 1 : Nat) ∨
    year * 12 + (0 : Nat) = d.year * 12 + (d.month - 1 : Nat) ∧ 1 ≤ d.day ↔ year ≤ d.year
  omega

theorem le_endOf_iff (d : Date) : d.le (endOf year) = true ↔ d.year ≤ year := by
  have hmonth := d.month_bounds
  have hday := d.day_le
  rw [endOf_eq hlow hhigh, le_iff_monthNumber]
  show d.year * 12 + (d.month - 1 : Nat) < year * 12 + (11 : Nat) ∨
    d.year * 12 + (d.month - 1 : Nat) = year * 12 + (11 : Nat) ∧ d.day ≤ 31 ↔ d.year ≤ year
  omega

end Year

end Date

end FileMarket
