import FileMarket.Decimal.Notation
import FileMarket.Decimal.Reader
import FileMarket.Error
import FileMarket.Text.Blank

/-!
# Prices and the balance gate

A price is usable when it is finite and not negative. Before a purchase the
price is set against the wallet's balance; a balance that falls below zero is
reported and not refused, since the node decides whether the payment goes
through.
-/

namespace FileMarket

open Text

/-- Reads a price that the user typed. -/
def parsePrice (text : String) : Outcome Binary64 :=
  let text := trim text
  if text.isEmpty then .error (.validation "Please input a price.")
  else match Binary64.ofText? text with
    | some price =>
      if price.isAmount then .ok price
      else .error (.validation "Price must be a non-negative number.")
    | none => .error (.validation ("Invalid price: " ++ text))

/-- Accepts a price that is set, finite and not negative. -/
def validatePrice : Option Binary64 → Outcome Binary64
  | none => .error (.validation "This file has no price.")
  | some price =>
    if !price.isFinite || price.lt .zero then
      .error (.validation ("Invalid price: " ++ price.plainText))
    else .ok price

/-- A price set against a balance. -/
structure BalanceGate where
  balance : Binary64
  price : Binary64
  newBalance : Binary64
deriving DecidableEq

namespace BalanceGate

/-- Sets a price against a balance. An unusable price is found first; then the
balance must be known and finite. -/
def check (balance price : Option Binary64) : Outcome BalanceGate := do
  let price ← validatePrice price
  match balance.filter Binary64.isFinite with
  | some balance => return ⟨balance, price, balance.sub price⟩
  | none => throw (.unavailable "Wallet balance is not available yet.")

/-- Whether the purchase leaves less than nothing. -/
def isOverdrawn (gate : BalanceGate) : Bool := gate.newBalance.lt .zero

end BalanceGate

end FileMarket
