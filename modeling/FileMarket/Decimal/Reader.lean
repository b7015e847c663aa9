import FileMarket.Text.Ascii
import FileMarket.Decimal.Binary64

/-!
# Reading numbers

A decimal text denotes `digits * 10 ^ exponent`; `Binary64.ofText?` gives the
value nearest to it. `readCount` reads a count of at most 64 bits and says why a
text is none.
-/

namespace FileMarket

open Text

/-- The value nearest to `± n * 10 ^ e`. Numbers far beyond the range are decided
by their number of digits. -/
def Binary64.ofDecimal (negative : Bool) (n : Nat) (e : Int) : Binary64 :=
  let scale : Int := (decimalDigits n).length + e
  let magnitude :=
    if n = 0 ∨ scale < -330 then 0
    else if 310 < scale then infinityMagnitude
    else (ofFloat (Float.ofScientific n (decide (e < 0)) e.natAbs)).magnitude
  ofMagnitude negative magnitude

/-- A sign at the front of a text, if there is one: whether it is a minus, and the rest. -/
def spanSign : List Char → Bool × List Char
  | '+' :: rest => (false, rest)
  | '-' :: rest => (true, rest)
  | s => (false, s)

/-- The exponent that ends a decimal text; nothing at all stands for 0. -/
def exponentOf? : List Char → Option Int
  | [] => some 0
  | c :: rest =>
    if c = 'e' ∨ c = 'E' then
      let (minus, ds) := spanSign rest
      if ds.isEmpty || !ds.all Char.isDigit then none
      else some (if minus then -(digitsValue ds : Int) else digitsValue ds)
    else none

/-- The digits and the exponent of an unsigned decimal text: digits with at most
one point, at least one digit, and an optional exponent. -/
def decimalOf? (s : List Char) : Option (Nat × Int) :=
  let (whole, rest) := spanDigits s
  let (fraction, rest) := match rest with
    | '.' :: more => spanDigits more
    | more => ([], more)
  if whole.isEmpty && fraction.isEmpty then none
  else (exponentOf? rest).map fun e => (digitsValue (whole ++ fraction), e - fraction.length)

/-- The magnitude of a quiet NaN. -/
def quietNaN : Nat := 0x7FF8000000000000

/-- The value that a text denotes: an optional sign, then a decimal text, or
`inf`, `infinity` or `nan` in any case. -/
def Binary64.ofText? (s : String) : Option Binary64 :=
  let (negative, body) := spanSign s.toList
  let word := lowerAscii (String.ofList body)
  if word == "inf" || word == "infinity" then some (ofMagnitude negative infinityMagnitude)
  else if word == "nan" then some (ofMagnitude negative quietNaN)
  else (decimalOf? body).map fun (n, e) => ofDecimal negative n e

/-- Why a text is not a count. -/
inductive CountFault where
  | empty
  | invalidDigit
  | tooLarge
deriving DecidableEq, Repr

/-- The wording of a fault. -/
def CountFault.message : CountFault → String
  | .empty => "cannot parse integer from empty string"
  | .invalidDigit => "invalid digit found in string"
  | .tooLarge => "number too large to fit in target type"

/-- One more character of a count. The first fault in reading order is the one reported. -/
def readDigit (n : Nat) (c : Char) : Except CountFault Nat :=
  if !c.isDigit then .error .invalidDigit
  else
    let next := 10 * n + digitValue c
    if next < UInt64.size then .ok next else .error .tooLarge

/-- Reads a count: an optional plus and decimal digits, below `2 ^ 64`. -/
def readCount (s : String) : Except CountFault UInt64 :=
  let count (ds : List Char) := (ds.foldlM readDigit 0).map UInt64.ofNat
  match s.toList with
  | [] => .error .empty
  | ['+'] => .error .invalidDigit
  | '+' :: ds => count ds
  | ds => count ds

end FileMarket
