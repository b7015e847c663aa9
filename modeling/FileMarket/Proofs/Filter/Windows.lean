import FileMarket.Filter.Bucket
import FileMarket.Proofs.Calendar.DayNumber

/-!
# Windows of dates

What the windows of dates hold, in terms of the calendar (`windows_follow_calendar`). All but last
year end with the present day and begin at a day that never goes back as time goes on, so a date that
such a window has left behind is not taken in again (`contains_of_later`).
-/

set_option autoImplicit false

namespace FileMarket.DateBucket

variable {bucket : DateBucket} {today d : Date}

theorem contains_iff : bucket.contains today d = true ↔
    (bucket.bounds today).1.le d = true ∧ d.le (bucket.bounds today).2 = true :=
  Bool.and_eq_true_iff

theorem contains_iff_dayNumber : bucket.contains today d = true ↔
    (bucket.bounds today).1.dayNumber ≤ d.dayNumber ∧
      d.dayNumber ≤ (bucket.bounds today).2.dayNumber := by
  rw [contains_iff, Date.le_iff_dayNumber, Date.le_iff_dayNumber]

/-! ## Recent days -/

theorem contains_today_iff : DateBucket.today.contains today d = true ↔ d = today := by
  rw [contains_iff_dayNumber, ← Date.dayNumber_inj]
  exact le_antisymm_iff.symm.trans eq_comm

/-- A window that begins some days back holds the dates that are no further back and not to come. -/
theorem contains_iff_of_daysBack {n : Nat} (h : bucket.bounds today = (today.daysBack n, today)) :
    bucket.contains today d = true ↔
      d.le today = true ∧ today.dayNumber - d.dayNumber ≤ n := by
  have hfirst := d.dayNumber_first_le
  rw [contains_iff_dayNumber, h, Date.le_iff_dayNumber, Date.dayNumber_daysBack]
  dsimp only
  omega

theorem contains_last7Days_iff : last7Days.contains today d = true ↔
    d.le today = true ∧ today.dayNumber - d.dayNumber ≤ 7 :=
  contains_iff_of_daysBack (n := 7) rfl

theorem contains_last30Days_iff : last30Days.contains today d = true ↔
    d.le today = true ∧ today.dayNumber - d.dayNumber ≤ 30 :=
  contains_iff_of_daysBack (n := 30) rfl

/-! ## Years -/

theorem contains_thisYear_iff : thisYear.contains today d = true ↔
    d.year = today.year ∧ d.le today = true := by
  obtain ⟨hlow, hhigh⟩ := today.year_bounds
  rw [contains_iff]
  show (Date.startOf today.year).le d = true ∧ d.le today = true ↔ _
  rw [Date.startOf_le_iff hlow hhigh]
  constructor
  · rintro ⟨hyear, hle⟩
    exact ⟨le_antisymm (Date.year_le_of_le hle) hyear, hle⟩
  · rintro ⟨hyear, hle⟩
    exact ⟨hyear.ge, hle⟩

/-- Last year is a year of the calendar, unless the calendar begins with the present one. -/
theorem year_before_bounds (h : firstYear < today.year) :
    firstYear ≤ today.year - 1 ∧ today.year - 1 ≤ FileMarket.lastYear := by
  have hyear := today.year_bounds.2
  omega

theorem contains_lastYear_iff (h : firstYear < today.year) :
    lastYear.contains today d = true ↔ d.year = today.year - 1 := by
  obtain ⟨hlow, hhigh⟩ := year_before_bounds h
  rw [contains_iff]
  show (Date.startOf (today.year - 1)).le d = true ∧ d.le (Date.endOf (today.year - 1)) = true ↔ _
  rw [Date.startOf_le_iff hlow hhigh, Date.le_endOf_iff hlow hhigh, and_comm]
  exact le_antisymm_iff.symm

/-! ## The passing of time -/

/-- The end of a window other than last year is the present day. -/
theorem bounds_snd (h : bucket ≠ lastYear) : (bucket.bounds today).2 = today := by
  cases bucket with
  | lastYear => exact absurd rfl h
  | today | last7Days | last30Days | last6Months | thisYear => rfl

/-- The present day is in every window but last year. -/
theorem contains_present (h : bucket ≠ lastYear) : bucket.contains today today = true := by
  rw [contains_iff_dayNumber, bounds_snd h]
  refine ⟨?_, le_rfl⟩
  have hfirst := today.dayNumber_first_le
  cases bucket with
  | today => exact le_rfl
  | last7Days | last30Days =>
    rw [bounds, Date.dayNumber_daysBack]
    omega
  | last6Months => exact (Date.le_iff_dayNumber _ _).1 (today.monthsBack_le 6)
  | thisYear =>
    obtain ⟨hlow, hhigh⟩ := today.year_bounds
    exact (Date.le_iff_dayNumber _ _).1 ((Date.startOf_le_iff hlow hhigh today).2 le_rfl)
  | lastYear => exact absurd rfl h

/-- No window goes past the present day. -/
theorem bounds_snd_le (h : firstYear < today.year) : (bucket.bounds today).2.le today = true := by
  cases bucket with
  | lastYear =>
    obtain ⟨hlow, hhigh⟩ := year_before_bounds h
    rw [Date.le_iff_dayNumber]
    show (Date.endOf (today.year - 1)).dayNumber ≤ today.dayNumber
    rw [Date.endOf_eq hlow hhigh]
    refine (Date.dayNumber_lt_of_year_lt ?_).le
    show today.year - 1 < today.year
    omega
  | today | last7Days | last30Days | last6Months | thisYear =>
    exact (Date.le_iff_dayNumber _ _).2 le_rfl

/-- The beginning of a window other than last year never goes back. -/
theorem bounds_fst_le (hbucket : bucket ≠ lastYear) {early late : Date}
    (h : early.le late = true) : (bucket.bounds early).1.le (bucket.bounds late).1 = true := by
  have hnumber := (Date.le_iff_dayNumber early late).1 h
  cases bucket with
  | today => exact h
  | last7Days | last30Days =>
    rw [Date.le_iff_dayNumber, bounds, bounds, Date.dayNumber_daysBack, Date.dayNumber_daysBack]
    omega
  | last6Months => exact Date.monthsBack_le_monthsBack 6 h
  | thisYear =>
    obtain ⟨hlow, hhigh⟩ := early.year_bounds
    obtain ⟨hlow', hhigh'⟩ := late.year_bounds
    show (Date.startOf early.year).le (Date.startOf late.year) = true
    rw [Date.startOf_le_iff hlow hhigh, Date.startOf_eq hlow' hhigh']
    show early.year ≤ late.year
    exact Date.year_le_of_le h
  | lastYear => exact absurd rfl hbucket

/-- What a window other than last year holds of the past it has held all the time. -/
theorem contains_of_later (hbucket : bucket ≠ lastYear) {early late : Date}
    (hd : d.le early = true) (h : early.le late = true) (hlate : bucket.contains late d = true) :
    bucket.contains early d = true := by
  rw [contains_iff, bounds_snd hbucket] at hlate ⊢
  have hmove := bounds_fst_le hbucket h
  rw [Date.le_iff_dayNumber] at hmove hlate ⊢
  exact ⟨hmove.trans hlate.1, hd⟩

/-- The windows of dates follow the calendar, in every year but its first. The present day is among
the last 7 days, the last 30 days and the last 6 months. The last 7 or 30 days hold the dates that
lie at most so many days back and not ahead. Last year holds the dates of the year before, and this
year those of the present year that are not ahead, so that no date is in both; and no window goes past
the present day. As time goes on, a date that a window other than last year has left behind is left
behind for good. -/
theorem windows_follow_calendar :
    (∀ today : Date, firstYear < today.year →
      (∀ bucket ∈ [last7Days, last30Days, last6Months], ∀ d,
        DateBucket.today.contains today d = true → bucket.contains today d = true) ∧
      (∀ d, last7Days.contains today d = true ↔
        d.le today = true ∧ today.dayNumber - d.dayNumber ≤ 7) ∧
      (∀ d, last30Days.contains today d = true ↔
        d.le today = true ∧ today.dayNumber - d.dayNumber ≤ 30) ∧
      (∀ d, lastYear.contains today d = true ↔ d.year = today.year - 1) ∧
      (∀ d, thisYear.contains today d = true ↔ d.year = today.year ∧ d.le today = true) ∧
      (∀ d, ¬ (lastYear.contains today d = true ∧ thisYear.contains today d = true)) ∧
      (∀ bucket : DateBucket, (bucket.bounds today).2.le today = true)) ∧
    (∀ bucket ∈ [DateBucket.today, last7Days, last30Days, last6Months, thisYear],
      ∀ d early late : Date, d.le early = true → early.le late = true →
        bucket.contains early d = false → bucket.contains late d = false) := by
  constructor
  · intro today h
    refine ⟨?_, fun d => contains_last7Days_iff, fun d => contains_last30Days_iff,
      fun d => contains_lastYear_iff h, fun d => contains_thisYear_iff, ?_,
      fun bucket => bounds_snd_le h⟩
    · intro bucket hbucket d hd
      rw [contains_today_iff.1 hd]
      exact contains_present (ne_of_mem_of_not_mem hbucket (by decide))
    · rintro d ⟨hlast, hthis⟩
      have hlast := (contains_lastYear_iff h).1 hlast
      have hthis := (contains_thisYear_iff.1 hthis).1
      omega
  · intro bucket hbucket d early late hd hmove hearly
    have hother : bucket ≠ lastYear := ne_of_mem_of_not_mem hbucket (by decide)
    rw [← Bool.not_eq_true] at hearly ⊢
    exact mt (contains_of_later hother hd hmove) hearly

/-- A day from which going back six months ends in a shorter month. -/
def lateAugust : Date := ⟨2024, 8, 31, by decide⟩

theorem lateAugust_windows :
    (firstYear < lateAugust.year ∧ ∀ d, lastYear.contains lateAugust d = true ↔ d.year = 2023) ∧
    (last6Months.contains lateAugust ⟨2024, 2, 29, by decide⟩ = true ∧
      last6Months.contains lateAugust ⟨2024, 2, 28, by decide⟩ = false ∧
      last6Months.contains ⟨2024, 9, 1, by decide⟩ ⟨2024, 2, 28, by decide⟩ = false) := by
  have hyear : firstYear < lateAugust.year := by decide
  have hexcluded : last6Months.contains lateAugust ⟨2024, 2, 28, by decide⟩ = false := by decide
  refine ⟨⟨hyear, (windows_follow_calendar.1 lateAugust hyear).2.2.2.1⟩, by decide, hexcluded, ?_⟩
  exact windows_follow_calendar.2 last6Months (by decide) _ lateAugust _ (by decide) (by decide)
    hexcluded

/-- In the first year of the calendar the year before is missing, and its first day stands for it. -/
example : lastYear.contains Date.first Date.first = true := by decide

end FileMarket.DateBucket
