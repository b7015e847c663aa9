import FileMarket.Decimal.Binary64

/-!
# JSON values

Values of the wire format. An object is the list of its pairs in the order they
were written, so a key can stand in it twice. A number keeps the form it was
read in: a count, a negative integer, or a floating point value.
-/

namespace FileMarket

/-- A JSON number. -/
inductive Number where
  | unsigned (n : UInt64)
  | signed (n : Int64)
  | real (x : Binary64)
deriving DecidableEq, Repr

/-- The floating point value nearest to a number. -/
def Number.toBinary64 : Number → Binary64
  | .unsigned n => .ofCount n
  | .signed n =>
    let size := Binary64.ofCount (.ofNat n.toInt.natAbs)
    if n < 0 then size.negate else size
  | .real x => x

/-- A JSON value. -/
inductive Json where
  | null
  | bool (b : Bool)
  | number (n : Number)
  | text (s : String)
  | array (items : List Json)
  | object (fields : List (String × Json))
deriving Inhabited

namespace Json

/-- Puts a pair into a list of pairs with ascending keys; a pair with the same key is replaced. -/
def insertField (key : String) (value : Json) : List (String × Json) → List (String × Json)
  | [] => [(key, value)]
  | (k, v) :: rest =>
    if key < k then (key, value) :: (k, v) :: rest
    else if key = k then (key, value) :: rest
    else (k, v) :: insertField key value rest

mutual

/-- The value with the keys of every object ascending and, of pairs with one key, the last. -/
def canonical : Json → Json
  | .array items => .array (canonicalItems items)
  | .object fields => .object (canonicalFields [] fields)
  | value => value

/-- The canonical forms of a list of values. -/
def canonicalItems : List Json → List Json
  | [] => []
  | item :: rest => canonical item :: canonicalItems rest

/-- Puts the canonical forms of pairs into a list of pairs with ascending keys. -/
def canonicalFields (sorted : List (String × Json)) : List (String × Json) → List (String × Json)
  | [] => sorted
  | (key, value) :: rest => canonicalFields (insertField key (canonical value) sorted) rest

end

/-- The value of a key in an object. -/
def get? (key : String) : Json → Option Json
  | .object fields => fields.lookup key
  | _ => none

end Json

end FileMarket
