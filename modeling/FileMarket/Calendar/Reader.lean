import FileMarket.Calendar.Date
import FileMarket.Text.Blank

/-!
# Reading dates

A date is written year first with dashes, month first with slashes, or year
first with slashes; these forms are tried in this order. A full time stamp of
the internet profile, with time and offset, stands for the date written in it.
-/

namespace FileMarket

open Text

namespace Date

/-- A part of a written date. -/
inductive Part where
  | year
  | month
  | day
  | sign (c : Char)

/-- A date of which some parts have been read. -/
structure Draft where
  year : Option Int
  month : Option Nat
  day : Option Nat

/-- At most `width` digits, at least one, and what follows them. -/
def takeNumber (width : Nat) (s : List Char) : Option (Nat × List Char) :=
  let ds := (s.take width).takeWhile Char.isDigit
  if ds.isEmpty then none else some (digitsValue ds, s.drop ds.length)

/-- A year and what follows it. Blanks may stand before it. A year with a sign has
any number of digits, one without at most four. -/
def takeYear (s : List Char) : Option (Int × List Char) :=
  match trimStartChars s with
  | '-' :: rest => (takeNumber rest.length rest).map fun (n, rest) => (-(n : Int), rest)
  | '+' :: rest => (takeNumber rest.length rest).map fun (n, rest) => ((n : Int), rest)
  | rest => (takeNumber 4 rest).map fun (n, rest) => ((n : Int), rest)

/-- One part of a date, and what follows it. Blanks may stand before a number. -/
def takePart (draft : Draft) (s : List Char) : Part → Option (Draft × List Char)
  | .year => (takeYear s).map fun (n, rest) => (⟨some n, draft.month, draft.day⟩, rest)
  | .month =>
    (takeNumber 2 (trimStartChars s)).map fun (n, rest) => (⟨draft.year, some n, draft.day⟩, rest)
  | .day =>
    (takeNumber 2 (trimStartChars s)).map fun (n, rest) => (⟨draft.year, draft.month, some n⟩, rest)
  | .sign c => match s with
    | d :: rest => if d = c then some (draft, rest) else none
    | [] => none

/-- The parts of a form, one after the other, and what follows the last. -/
def takeParts (draft : Draft) (s : List Char) : List Part → Option (Draft × List Char)
  | [] => some (draft, s)
  | part :: parts => do
    let (draft, s) ← takePart draft s part
    takeParts draft s parts

/-- The date written in a given form that takes up the whole text. -/
def ofForm? (form : List Part) (s : List Char) : Option Date :=
  match takeParts ⟨none, none, none⟩ s form with
  | some (⟨some year, some month, some day⟩, []) => of? year month day
  | _ => none

/-- The forms of a written date, in the order in which they are tried. -/
def forms : List (List Part) := [
  [.year, .sign '-', .month, .sign '-', .day],
  [.month, .sign '/', .day, .sign '/', .year],
  [.year, .sign '/', .month, .sign '/', .day]]

/-- Exactly `width` digits with a value from `low` to `high`, and what follows them. -/
def takeExactly (width low high : Nat) (s : List Char) : Option (Nat × List Char) :=
  let ds := s.take width
  if ds.length = width ∧ ds.all Char.isDigit then
    let n := digitsValue ds
    if low ≤ n ∧ n ≤ high then some (n, s.drop width) else none
  else none

/-- What follows a given character at the front. -/
def after? (c : Char) : List Char → Option (List Char)
  | d :: rest => if d = c then some rest else none
  | [] => none

/-- The fraction of a second, if a point begins one. -/
def afterFraction? : List Char → Option (List Char)
  | '.' :: d :: rest => if d.isDigit then some (rest.dropWhile Char.isDigit) else none
  | ['.'] => none
  | s => some s

/-- Whether a text is the offset from universal time that ends a time stamp: the
letter Z, or a sign, hours up to 23, a colon and minutes. The minus may be the
mathematical one. -/
def isOffset : List Char → Bool
  | ['Z'] => true
  | ['z'] => true
  | c :: rest =>
    (c == '+' || c == '-' || c == '\u2212') &&
      (do
        let (_, rest) ← takeExactly 2 0 23 rest
        let rest ← after? ':' rest
        let (_, rest) ← takeExactly 2 0 59 rest
        if rest.isEmpty then some () else none).isSome
  | [] => false

/-- Whether a text is the time of a time stamp: hours, minutes and seconds, a leap
second included, an optional fraction, and the offset. -/
def isTime (s : List Char) : Bool :=
  (do
    let (_, s) ← takeExactly 2 0 23 s
    let s ← after? ':' s
    let (_, s) ← takeExactly 2 0 59 s
    let s ← after? ':' s
    let (_, s) ← takeExactly 2 0 60 s
    let s ← afterFraction? s
    if isOffset s then some () else none).isSome

/-- The date of a time stamp. A letter T or a space stands between date and time. -/
def ofTimeStamp? (s : List Char) : Option Date := do
  let (year, s) ← takeExactly 4 0 9999 s
  let s ← after? '-' s
  let (month, s) ← takeExactly 2 1 12 s
  let s ← after? '-' s
  let (day, s) ← takeExactly 2 1 31 s
  match s with
  | c :: time =>
    if (c = 'T' ∨ c = 't' ∨ c = ' ') ∧ isTime time then of? year month day else none
  | [] => none

/-- Reads a date in any of its forms, blanks around it ignored. -/
def parse? (s : String) : Option Date :=
  let s := trimChars s.toList
  (forms.findSome? (ofForm? · s)).or (ofTimeStamp? s)

end Date

end FileMarket
