import FileMarket.Calendar.Reader
import FileMarket.Decimal.Reader
import FileMarket.Json.Printer
import FileMarket.Text.Blank

/-!
# Lenient attributes

Attributes of a record as they come over the wire. A value of the wrong type or
out of range counts as absent, so one bad attribute never spoils a listing.
-/

namespace FileMarket.Wire

open FileMarket.Text

/-- A text without its outer blanks, if anything is left of it. A number counts as its text. -/
def text? (value : Json) : Option String :=
  let shown? : Option String := match value with
    | .text s => some s
    | .number n => some n.print
    | _ => none
  shown?.bind fun s => if (trim s).isEmpty then none else some (trim s)

/-- The count that a floating point value equals. The value `2 ^ 64` is held at the
greatest count. -/
def realCount? (x : Binary64) : Option UInt64 :=
  x.toNat?.bind fun n =>
    if n ≤ UInt64.size then some (UInt64.ofNat (min n (UInt64.size - 1))) else none

/-- A count: a number that is one, or a text of digits with an optional plus. -/
def count? : Json → Option UInt64
  | .number (.unsigned n) => some n
  | .number n => realCount? n.toBinary64
  | .text s => (readCount (trim s)).toOption
  | _ => none

/-- The value of a number or of a text that denotes one. -/
def real? : Json → Option Binary64
  | .number n => some n.toBinary64
  | .text s => Binary64.ofText? (trim s)
  | _ => none

/-- An amount: finite and not negative. -/
def amount? (value : Json) : Option Binary64 := (real? value).filter Binary64.isAmount

/-- A date in any of the forms that a text can have. -/
def date? : Json → Option Date
  | .text s => Date.parse? s
  | _ => none

end FileMarket.Wire
