import FileMarket.Decimal.Shortest

/-!
# Texts of values

Two ways to write a value by its shortest digits. The plain form has no exponent
and no fraction of zero. The wire form has at least one decimal, and an exponent
outside a middle range of magnitudes.
-/

namespace FileMarket.Binary64

open FileMarket.Text

/-- A decimal without exponent: zeros fill up to the point. -/
def positional (d : Decimal) : List Char :=
  let ds := decimalDigits d.digits
  if 0 ≤ d.exponent then ds ++ List.replicate d.exponent.toNat '0'
  else
    let places := (-d.exponent).toNat
    let filled := List.replicate (places + 1 - ds.length) '0' ++ ds
    filled.take (filled.length - places) ++ '.' :: filled.drop (filled.length - places)

/-- A decimal with one digit before the point and a signed exponent; a lone digit
has no point, and the exponent has no fixed width. -/
def scientific (d : Decimal) : List Char :=
  let ds := decimalDigits d.digits
  let e := d.exponent + (ds.length - 1 : Nat)
  let point := if ds.length ≤ 1 then ds else ds.take 1 ++ '.' :: ds.drop 1
  point ++ 'e' :: (if e < 0 then '-' else '+') :: decimalDigits e.natAbs

/-- A sign in front of an absolute value. -/
def signed (x : Binary64) (text : List Char) : String :=
  String.ofList (if x.isNegative then '-' :: text else text)

/-- Plain text: `20`, `0.1`, `-0`, `inf`, `NaN`. Of two equally near shortest
decimals it takes the greater. -/
def plainText (x : Binary64) : String :=
  if x.isNaN then "NaN"
  else if !x.isFinite then x.signed "inf".toList
  else if x.significand = 0 then x.signed ['0']
  else x.signed (positional (x.shortest .up))

/-- Wire text: `20.0`, `0.00001`, `1e+16`, `1.5e-7`. Magnitudes from `1e-5` to
below `1e16` have no exponent. A value that is no finite number is `null`. -/
def wireText (x : Binary64) : String :=
  if !x.isFinite then "null"
  else if x.significand = 0 then x.signed ['0', '.', '0']
  else
    let d := x.shortest .even
    let lead := d.exponent + ((decimalDigits d.digits).length - 1 : Nat)
    if -5 ≤ lead ∧ lead < 16 then
      x.signed (if 0 ≤ d.exponent then positional d ++ ['.', '0'] else positional d)
    else x.signed (scientific d)

end FileMarket.Binary64
