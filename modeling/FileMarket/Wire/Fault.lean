/-!
# Faults of wire values

Why a text or value from the node is not what was asked for.
-/

namespace FileMarket.Wire

/-- The reason for which a value cannot be decoded. -/
inductive Fault where
  /-- Not JSON, or of the wrong shape. -/
  | malformed
  | missing (field : String)
  | duplicate (field : String)
  /-- A balance that is no number, with its text. -/
  | badBalance (shown : String)
  | unboundedBalance
deriving DecidableEq, Repr

/-- The wording of a fault that has one of its own. -/
def Fault.message? : Fault → Option String
  | .malformed => none
  | .missing field => some ("missing field `" ++ field ++ "`")
  | .duplicate field => some ("duplicate field `" ++ field ++ "`")
  | .badBalance shown => some ("invalid balance: " ++ shown)
  | .unboundedBalance => some "balance is not a finite number"

/-- The wording of a fault. -/
def Fault.message (fault : Fault) : String :=
  fault.message?.getD "the value is malformed"

end FileMarket.Wire
