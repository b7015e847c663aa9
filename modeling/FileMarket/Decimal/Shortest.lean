import FileMarket.Text.Ascii
import FileMarket.Decimal.Binary64

/-!
# Shortest decimals

The decimal with the fewest digits among those that round to a given value. The
decimals that round to the value form an interval, which is compared with
candidates in exact arithmetic.
-/

namespace FileMarket

open Text

/-- The decimal number `digits * 10 ^ exponent`. -/
structure Decimal where
  digits : Nat
  exponent : Int
deriving DecidableEq, Repr

/-- Which of two equally near decimals is taken. -/
inductive Tie where
  | up
  | even
deriving DecidableEq, Repr

/-- Compares `a * 10 ^ i` with `n * 2 ^ j`. -/
def compareScaled (a : Nat) (i : Int) (n : Nat) (j : Int) : Ordering :=
  compare (a * Nat.pow 10 i.toNat * Nat.pow 2 (-j).toNat)
    (n * Nat.pow 2 j.toNat * Nat.pow 10 (-i).toNat)

namespace Binary64

/-- Whether the value below is nearer than the value above, as it is at powers of two. -/
def isBinade (x : Binary64) : Bool := x.magnitude % exponentWeight == 0 && 1 < x.exponentField

/-- Whether a decimal rounds to the positive finite value `x`: it lies between
the midpoints to the neighbours, the midpoints included when the significand is
even. -/
def admits (x : Binary64) (d : Decimal) : Bool :=
  let low := 4 * x.significand - (if x.isBinade then 1 else 2)
  let high := 4 * x.significand + 2
  let closed := x.significand % 2 == 0
  let below := compareScaled d.digits d.exponent low (x.exponent - 2)
  let above := compareScaled d.digits d.exponent high (x.exponent - 2)
  (below == .gt || (closed && below == .eq)) && (above == .lt || (closed && above == .eq))

/-- The least `k` with `x < 10 ^ k`, for a positive finite value. -/
def scale (x : Binary64) : Int :=
  if 0 ≤ x.exponent then (decimalDigits (x.significand * Nat.pow 2 x.exponent.toNat)).length
  else
    let unit := Nat.pow 2 (-x.exponent).toNat
    if unit ≤ x.significand then (decimalDigits (x.significand / unit)).length
    else 1 - ((decimalDigits ((unit - 1) / x.significand)).length : Int)

/-- The greatest multiple of `10 ^ e` that is not above the value, in that unit. -/
def floorAt (x : Binary64) (e : Int) : Nat :=
  (x.significand * Nat.pow 2 x.exponent.toNat * Nat.pow 10 (-e).toNat) /
    (Nat.pow 2 (-x.exponent).toNat * Nat.pow 10 e.toNat)

/-- Of the two neighbours of the value with unit `10 ^ e`, the one that rounds to
the value and is nearer to it. -/
def neighbour? (x : Binary64) (tie : Tie) (e : Int) : Option Decimal :=
  let low : Decimal := ⟨x.floorAt e, e⟩
  let high : Decimal := ⟨x.floorAt e + 1, e⟩
  match x.admits low, x.admits high with
  | true, false => some low
  | false, true => some high
  | false, false => none
  | true, true =>
    match compareScaled (low.digits + high.digits) e (2 * x.significand) x.exponent with
    | .gt => some low
    | .lt => some high
    | .eq => some (if tie == .even && low.digits % 2 == 0 then low else high)

/-- A decimal without the zeros at the end of its digits; at most `fuel` are taken away. -/
def stripZeros : Nat → Decimal → Decimal
  | 0, d => d
  | fuel + 1, d =>
    if d.digits ≠ 0 ∧ d.digits % 10 = 0 then stripZeros fuel ⟨d.digits / 10, d.exponent + 1⟩ else d

/-- The decimal that a positive finite value equals. -/
def exactDecimal (x : Binary64) : Decimal :=
  if 0 ≤ x.exponent then ⟨x.significand * Nat.pow 2 x.exponent.toNat, 0⟩
  else ⟨x.significand * Nat.pow 5 (-x.exponent).toNat, x.exponent⟩

/-- The shortest decimal that rounds to a positive finite value: the first count
of digits from 1 to 17 at which a neighbour does. -/
def shortest (tie : Tie) (x : Binary64) : Decimal :=
  let found := (List.range 17).findSome? fun n => x.neighbour? tie (x.scale - (n + 1 : Nat))
  let d := found.getD x.exactDecimal
  stripZeros (decimalDigits d.digits).length d

end Binary64

end FileMarket
