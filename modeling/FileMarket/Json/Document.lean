import FileMarket.Text.Ascii
import FileMarket.Decimal.Binary64
import FileMarket.Json.Value

/-!
# JSON texts as written

A document is the structure of a JSON text before its numbers and strings are
given values, up to the first place where the text is not JSON. What a reader
of the wire format does not look at needs no value: a number out of range or
an unpaired surrogate is a fault only where it is used.
-/

namespace FileMarket

open Text

/-- A number as written: its sign, the digits before and behind the point, and the exponent. -/
structure Numeral where
  negative : Bool
  whole : List Char
  fraction : Option (List Char)
  exponent : Option (Bool × List Char)
deriving Repr

/-- Takes digits into a number below `2 ^ 64`. From the first digit that no longer
fits, digits are only counted. -/
def takeDigits : Nat → List Char → Nat × Nat
  | n, [] => (n, 0)
  | n, d :: rest =>
    if 10 * n + digitValue d < UInt64.size then takeDigits (10 * n + digitValue d) rest
    else (n, rest.length + 1)

/-- The power of ten nearest to `10 ^ k`. -/
def tenTo (k : Nat) : Binary64 := .ofFloat (Float.ofScientific 1 false k)

/-- A value divided by `10 ^ k`, in steps of at most 308 places. -/
def scaleDown (x : Binary64) (k : Nat) : Binary64 :=
  if k ≤ 308 then x.div (tenTo k)
  else if x.magnitude = 0 then x
  else scaleDown (x.div (tenTo 308)) (k - 308)
termination_by k

/-- A significand of at most 64 bits times a power of ten, with one rounding for
each of the two and one for each product or quotient; none beyond the range. -/
def scaled? (n : Nat) (e : Int) : Option Binary64 :=
  let x := Binary64.ofCount (.ofNat n)
  if n = 0 then some x
  else if e < 0 then some (scaleDown x e.natAbs)
  else if 308 < e then none
  else
    let y := x.mul (tenTo e.toNat)
    if y.isFinite then some y else none

/-- The number that a numeral denotes: an integer that fits stays one, `-0` and
all else is a floating point value. -/
def Numeral.value? (numeral : Numeral) : Option Number :=
  let (n, surplus) := takeDigits 0 numeral.whole
  let real (x : Binary64) : Number := .real (if numeral.negative then x.negate else x)
  match numeral.fraction, numeral.exponent, surplus with
  | none, none, 0 =>
    if !numeral.negative then some (.unsigned (.ofNat n))
    else if 0 < n ∧ n ≤ Int64.maxValue.toInt.toNat + 1 then some (.signed (.ofInt (-n)))
    else some (real (.ofCount (.ofNat n)))
  | fraction, exponent, surplus =>
    let digits := fraction.getD []
    let (m, dropped) := takeDigits n digits
    let start : Int := surplus - (digits.length - dropped : Nat)
    let shift : Int := match exponent with
      | none => 0
      | some (minus, ds) => if minus then -(digitsValue ds : Int) else digitsValue ds
    (scaled? m (start + shift)).map real

/-- A JSON text as written. `text none` is a string with an unpaired surrogate
escape; an array or object that is not `closed`, and `broken`, end where the
text stops being JSON. -/
inductive Document where
  | null
  | bool (b : Bool)
  | number (numeral : Numeral)
  | text (s : Option String)
  | array (items : List Document) (closed : Bool)
  | object (fields : List (String × Document)) (closed : Bool)
  | broken
deriving Inhabited

namespace Document

mutual

/-- The value of a document in which arrays and objects nest less than `depth`
deep; none where the text breaks off or something in it has no value. -/
def value? (depth : Nat) : Document → Option Json
  | .null => some .null
  | .bool b => some (.bool b)
  | .number numeral => numeral.value?.map .number
  | .text s => s.map .text
  | .array items closed =>
    if closed && 1 < depth then (values? (depth - 1) items).map .array else none
  | .object fields closed =>
    if closed && 1 < depth then (fieldValues? (depth - 1) fields).map .object else none
  | .broken => none

/-- The values of a list of documents. -/
def values? (depth : Nat) : List Document → Option (List Json)
  | [] => some []
  | item :: rest => do
    let value ← value? depth item
    let values ← values? depth rest
    return value :: values

/-- The values of the pairs of an object. -/
def fieldValues? (depth : Nat) : List (String × Document) → Option (List (String × Json))
  | [] => some []
  | (key, item) :: rest => do
    let value ← value? depth item
    let values ← fieldValues? depth rest
    return (key, value) :: values

end

/-- How deep arrays and objects may nest before reading is refused. -/
def maxDepth : Nat := 128

end Document

end FileMarket
