/-!
# Binary floating point amounts

Prices, balances and the fractions among numbers on the wire are 64-bit binary
floating point values, held by their bits: one sign bit, eleven bits of exponent
and fifty-two of fraction. Order and exact value are read off the bits; sums,
differences and quotients are the rounded ones of the machine.
-/

namespace FileMarket

/-- A 64-bit binary floating point value. -/
structure Binary64 where
  bits : UInt64
deriving DecidableEq, Inhabited, Repr

namespace Binary64

/-- The weight of the sign bit, above the 63 bits of the magnitude. -/
def signWeight : Nat := 0x8000000000000000

/-- The weight of the exponent's lowest bit, above the 52 bits of the fraction. -/
def exponentWeight : Nat := 0x10000000000000

/-- The bits below the sign, as a number. It grows with the absolute value. -/
def magnitude (x : Binary64) : Nat := x.bits.toNat % signWeight

/-- Whether the sign bit is set. -/
def isNegative (x : Binary64) : Bool := signWeight ≤ x.bits.toNat

/-- The magnitude of the infinities; greater ones belong to values that are no number. -/
def infinityMagnitude : Nat := 0x7FF0000000000000

/-- Neither infinite nor NaN. -/
def isFinite (x : Binary64) : Bool := x.magnitude < infinityMagnitude

/-- Not a number. -/
def isNaN (x : Binary64) : Bool := infinityMagnitude < x.magnitude

/-- The value with a given sign and magnitude. -/
def ofMagnitude (negative : Bool) (magnitude : Nat) : Binary64 :=
  ⟨UInt64.ofNat (magnitude % signWeight + if negative then signWeight else 0)⟩

/-- Zero. -/
def zero : Binary64 := ⟨0⟩

/-- The zero whose sign is set. -/
def negativeZero : Binary64 := ofMagnitude true 0

/-- The value with the opposite sign. -/
def negate (x : Binary64) : Binary64 := ofMagnitude (!x.isNegative) x.magnitude

/-- The biased exponent. -/
def exponentField (x : Binary64) : Nat := x.magnitude / exponentWeight

/-- The integer `m` of a finite value `± m * 2 ^ q`. -/
def significand (x : Binary64) : Nat :=
  if x.exponentField = 0 then x.magnitude else exponentWeight + x.magnitude % exponentWeight

/-- The exponent `q` of a finite value `± m * 2 ^ q`. -/
def exponent (x : Binary64) : Int :=
  if x.exponentField = 0 then -1074 else (x.exponentField : Int) - 1075

/-- The position of a value on the number line; both zeros stand at 0. -/
def position (x : Binary64) : Int := if x.isNegative then -x.magnitude else x.magnitude

/-- Strictly less; false where one side is not a number. -/
def lt (x y : Binary64) : Bool := !x.isNaN && !y.isNaN && x.position < y.position

/-- Less or equal; false where one side is not a number. -/
def le (x y : Binary64) : Bool := !x.isNaN && !y.isNaN && x.position ≤ y.position

/-- The rank of a value in the order of all values, which puts the negative zero
before the positive one and values that are no number beyond the infinities. -/
def rank (x : Binary64) : Int := if x.isNegative then -x.magnitude - 1 else x.magnitude

/-- The total order of all values. -/
def totalCompare (x y : Binary64) : Ordering := compare x.rank y.rank

/-- The value as the machine's floating point number. -/
def toFloat (x : Binary64) : Float := Float.ofBits x.bits

/-- The machine's floating point number as a value. -/
def ofFloat (f : Float) : Binary64 := ⟨f.toBits⟩

/-- Rounded sum. -/
def add (x y : Binary64) : Binary64 := ofFloat (x.toFloat + y.toFloat)

/-- Rounded difference. -/
def sub (x y : Binary64) : Binary64 := ofFloat (x.toFloat - y.toFloat)

/-- Rounded product. -/
def mul (x y : Binary64) : Binary64 := ofFloat (x.toFloat * y.toFloat)

/-- Rounded quotient. -/
def div (x y : Binary64) : Binary64 := ofFloat (x.toFloat / y.toFloat)

/-- The value nearest to a count. -/
def ofCount (n : UInt64) : Binary64 := ofFloat n.toFloat

/-- The natural number that a value equals, if it equals one. -/
def toNat? (x : Binary64) : Option Nat :=
  if !x.isFinite || (x.isNegative && x.significand != 0) then none
  else if 0 ≤ x.exponent then some (x.significand * Nat.pow 2 x.exponent.toNat)
  else
    let unit := Nat.pow 2 (-x.exponent).toNat
    if x.significand % unit = 0 then some (x.significand / unit) else none

/-- Finite and not below zero: what a price or a pending balance may be. -/
def isAmount (x : Binary64) : Bool := x.isFinite && le zero x

end Binary64

end FileMarket
