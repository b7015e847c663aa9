import FileMarket.Text.Ascii

/-!
# Calendar dates

Dates of the Gregorian calendar, carried back before its introduction, with the
year 0 before the year 1. The calendar begins on the first day of `firstYear`
and ends on the last day of `lastYear`.
-/

namespace FileMarket

open Text

/-- Years divisible by four are leap years, except centuries not divisible by 400. -/
def isLeapYear (year : Int) : Bool :=
  year % 4 == 0 && (year % 100 != 0 || year % 400 == 0)

/-- The number of days of a month. -/
def daysInMonth (year : Int) (month : Nat) : Nat :=
  match month with
  | 2 => if isLeapYear year then 29 else 28
  | 4 | 6 | 9 | 11 => 30
  | _ => 31

/-- The first year of the calendar. -/
def firstYear : Int := -262143

/-- The last year of the calendar. -/
def lastYear : Int := 262142

/-- The condition on a year, month and day to be a date of the calendar. -/
def IsDate (year : Int) (month day : Nat) : Prop :=
  firstYear ≤ year ∧ year ≤ lastYear ∧ 1 ≤ month ∧ month ≤ 12 ∧
    1 ≤ day ∧ day ≤ daysInMonth year month

instance (year : Int) (month day : Nat) : Decidable (IsDate year month day) := by
  unfold IsDate; infer_instance

/-- A date of the calendar. -/
structure Date where
  year : Int
  month : Nat
  day : Nat
  isDate : IsDate year month day
deriving DecidableEq

namespace Date

/-- The date with a given year, month and day, if the calendar has it. -/
def of? (year : Int) (month day : Nat) : Option Date :=
  if h : IsDate year month day then some ⟨year, month, day, h⟩ else none

/-- The first day of the calendar. -/
def first : Date := ⟨firstYear, 1, 1, by decide⟩

instance : Inhabited Date := ⟨first⟩

/-- Dates in the order of the calendar. -/
def compare (a b : Date) : Ordering :=
  (Ord.compare a.year b.year).then
    ((Ord.compare a.month b.month).then (Ord.compare a.day b.day))

instance : Ord Date := ⟨compare⟩

/-- Not after. -/
def le (a b : Date) : Bool := (compare a b).isLE

/-- The day before, and the first day of the calendar for itself. -/
def previous (d : Date) : Date :=
  if 1 < d.day then (of? d.year d.month (d.day - 1)).getD first
  else if 1 < d.month then
    (of? d.year (d.month - 1) (daysInMonth d.year (d.month - 1))).getD first
  else (of? (d.year - 1) 12 31).getD first

/-- The date some days back, held at the first day of the calendar. -/
def daysBack : Nat → Date → Date
  | 0, d => d
  | n + 1, d => (daysBack n d).previous

/-- The date some months back: the same day of the month, or the last day of a
shorter month; the first day of the calendar when the month lies before it. -/
def monthsBack (n : Nat) (d : Date) : Date :=
  let months := d.year * 12 + (d.month - 1 : Nat) - n
  let year := months / 12
  let month := (months % 12).toNat + 1
  (of? year month (min d.day (daysInMonth year month))).getD first

/-- The first day of a year, or of the calendar when it lacks that year. -/
def startOf (year : Int) : Date := (of? year 1 1).getD first

/-- The last day of a year, or the first of the calendar when it lacks that year. -/
def endOf (year : Int) : Date := (of? year 12 31).getD first

/-- A year with at least four digits; a sign where it is negative or has more. -/
def yearText (year : Int) : List Char :=
  if year < 0 then '-' :: padded 4 year.natAbs
  else if 9999 < year then '+' :: padded 4 year.natAbs
  else padded 4 year.natAbs

/-- The text `YYYY-MM-DD` of a date. -/
def print (d : Date) : String :=
  String.ofList (yearText d.year ++ '-' :: padded 2 d.month ++ '-' :: padded 2 d.day)

end Date

end FileMarket
