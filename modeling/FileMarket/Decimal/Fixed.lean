import FileMarket.Text.Ascii
import FileMarket.Decimal.Binary64

/-!
# A fixed number of decimals

The exact value is rounded to the nearest multiple of a power of ten, a half to
the even neighbour.
-/

namespace FileMarket

open Text

/-- The quotient rounded to the nearest natural number, a half to the even one. -/
def roundQuotient (a b : Nat) : Nat :=
  let q := a / b
  let r := a % b
  if 2 * r < b then q
  else if b < 2 * r then q + 1
  else if q % 2 = 0 then q else q + 1

namespace Binary64

/-- The absolute value in units of `10 ^ -places`, rounded to the nearest, ties to even. -/
def rounded (places : Nat) (x : Binary64) : Nat :=
  roundQuotient (x.significand * Nat.pow 2 x.exponent.toNat * Nat.pow 10 places)
    (Nat.pow 2 (-x.exponent).toNat)

/-- A number of units of `10 ^ -places` with its point. -/
def pointed (places n : Nat) : List Char :=
  decimalDigits (n / Nat.pow 10 places) ++
    (if places = 0 then [] else '.' :: padded places (n % Nat.pow 10 places))

/-- The value with exactly `places` decimals. The sign bit shows even before zeros. -/
def fixedText (places : Nat) (x : Binary64) : String :=
  let body :=
    if x.isNaN then "NaN".toList
    else if !x.isFinite then "inf".toList
    else pointed places (x.rounded places)
  String.ofList (if x.isNegative && !x.isNaN then '-' :: body else body)

end Binary64

end FileMarket
