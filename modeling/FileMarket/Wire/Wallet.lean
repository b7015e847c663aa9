import FileMarket.Wire.Record

/-!
# Wallets on the wire

A wallet is an object or an array of address, current and pending balance. The
current balance is required and must be a finite number or the text of one; a
pending balance that is no amount counts as zero.
-/

namespace FileMarket.Wire

/-- An attribute of a wallet. -/
inductive WalletField where
  | address
  | current
  | pending
deriving DecidableEq, Repr

namespace WalletField

/-- The attributes in the order of the array form. -/
def all : List WalletField := [.address, .current, .pending]

/-- The key that an attribute is written with. -/
def key : WalletField → String
  | .address => "address"
  | .current => "currentBalance"
  | .pending => "pendingBalance"

/-- The attribute that a key names; the current balance has a short name too. -/
def ofKey? (key : String) : Option WalletField :=
  if key = "balance" then some .current else all.find? (·.key == key)

end WalletField

/-- A current balance, which may be negative. -/
def balance? : Json → Except Fault Binary64
  | .number n => if n.toBinary64.isFinite then .ok n.toBinary64 else .error .unboundedBalance
  | .text s => match (Binary64.ofText? (Text.trim s)).filter Binary64.isFinite with
    | some x => .ok x
    | none => .error (.badBalance s)
  | value => .error (.badBalance value.canonical.print)

/-- A wallet of which some attributes have been read. -/
structure WalletDraft where
  seen : List WalletField
  wallet : Wallet

namespace WalletDraft

/-- Nothing read yet. -/
def empty : WalletDraft := ⟨[], ⟨none, .zero, .zero⟩⟩

/-- Sets one attribute. -/
def set (draft : WalletDraft) (field : WalletField) (value : Json) : Except Fault WalletDraft :=
  let put (wallet : Wallet) : Except Fault WalletDraft := .ok ⟨field :: draft.seen, wallet⟩
  match field, value with
  | .address, .text s => put { draft.wallet with address := some s }
  | .address, .null => put { draft.wallet with address := none }
  | .address, _ => .error .malformed
  | .current, value => do put { draft.wallet with current := ← balance? value }
  | .pending, value => put { draft.wallet with pending := (amount? value).getD .zero }

/-- Takes one pair of an object; an unknown key is passed over. -/
def take (draft : WalletDraft) (key : String) (value : Option Json) : Except Fault WalletDraft :=
  match WalletField.ofKey? key with
  | none => .ok draft
  | some field =>
    if field ∈ draft.seen then .error (.duplicate field.key)
    else match value with
      | none => .error .malformed
      | some value => draft.set field value

/-- The wallet, once its current balance has been read. -/
def finish (draft : WalletDraft) : Except Fault Wallet :=
  if .current ∈ draft.seen then .ok draft.wallet else .error (.missing WalletField.current.key)

/-- Sets attributes in the order of the array form, up to a value that is absent. -/
def takeItems (draft : WalletDraft) : List (WalletField × Option Json) → Except Fault WalletDraft
  | [] => .ok draft
  | (_, none) :: _ => .error .malformed
  | (field, some value) :: rest => do takeItems (← draft.set field value) rest

end WalletDraft

/-- The wallet with the given attributes in the order of the array form. -/
def walletOfItems (items : List (Option Json)) (closed : Bool) : Except Fault Wallet := do
  let draft ← WalletDraft.empty.takeItems (WalletField.all.zip items)
  if closed && items.length ≤ WalletField.all.length && WalletField.current ∈ draft.seen then
    return draft.wallet
  else .error .malformed

/-- The wallet that a value stands for. -/
def walletOfJson : Json → Except Fault Wallet
  | .object fields => do
    let draft ← fields.foldlM (fun draft (key, value) => draft.take key (some value))
      WalletDraft.empty
    draft.finish
  | .array items => walletOfItems (items.map some) true
  | _ => .error .malformed

/-- The wallet that a document stands for, in which arrays and objects nest less
than `depth` deep. -/
def walletOfDocument (depth : Nat) : Document → Except Fault Wallet
  | .object fields closed => do
    let draft ← fields.foldlM (fun draft (key, item) => draft.take key (item.value? (depth - 1)))
      WalletDraft.empty
    if closed then draft.finish else .error .malformed
  | .array items closed => walletOfItems (items.map (·.value? (depth - 1))) closed
  | _ => .error .malformed

/-- A wallet as an object; an absent address is left out. -/
def walletToJson (wallet : Wallet) : Json :=
  .object
    ((wallet.address.map fun s => (WalletField.address.key, Json.text s)).toList ++
      [(WalletField.current.key, .number (.real wallet.current)),
        (WalletField.pending.key, .number (.real wallet.pending))])

end FileMarket.Wire
