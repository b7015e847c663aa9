import FileMarket.CommandLine.Program
import FileMarket.CommandLine.Table

/-!
# Tasks of the command line

Each task is a program over the desk: it lists a section, shows the wallet, buys a
file, or carries out a batch. What changes the node or costs money is shown and
confirmed first.
-/

namespace FileMarket.CommandLine.Client

variable {σ : Type} (client : Client σ)

/-- Sets filter controls in turn. A tag that is not taken as it stands is refused. -/
def setFilters (desk : Desk) : List (FilterField × String) → Program σ Desk
  | [] => return desk
  | (field, tag) :: rest => do
    let desk ← client.perform desk (.setFilter field tag)
    if desk.grid.criteria.tag field ≠ Text.trim tag then throw (.told desk.status)
    setFilters desk rest

/-- Sorts a table, if a column or the descending direction is asked for. -/
def setSort (desk : Desk) (column : Option String) (descending : Bool) : Program σ Desk := do
  if column.isNone && !descending then return desk
  let column ← match column with
    | some text => orRefuse (Column.parse text)
    | none => pure desk.grid.sort.column
  let spec := if descending then SortSpec.descending column else SortSpec.ascending column
  let desk ← client.perform desk (.setSort spec)
  if desk.grid.sort ≠ spec then throw (.told desk.status)
  return desk

/-- Prints a section as a table. -/
def list (target : String) (filters : List (FilterField × String)) (column : Option String)
    (descending : Bool) : Program σ Unit := do
  let target ← orRefuse (Section.parse target)
  let desk ← client.openDesk target
  let desk ← client.setFilters desk filters
  let desk ← client.setSort desk column descending
  printLine (table desk.grid client.today)

/-- Prints the wallet. -/
def wallet : Program σ Unit := do
  let wallet ← client.call .wallet
  if let some address := wallet.address then printLine ("Address: " ++ address)
  printLine ("Balance: " ++ formatAmount wallet.current)
  printLine ("Pending: " ++ formatAmount wallet.pending)

/-- Fails with the error of the negotiation, or with the status when it has none. -/
def failAs {α : Type} (desk : Desk) : Program σ α :=
  throw (match desk.negotiation.shownError with
    | some error => .refused error
    | none => .told desk.status)

/-- The provider to buy from: the one given, the only one, or the one whose number is
typed. -/
def choosePeer (desk : Desk) (peer : Option String) : Program σ String := do
  match peer, desk.negotiation.providers with
  | some peer, _ => return peer
  | none, [provider] => return provider.peer
  | none, providers =>
    let answer ← ask ("Choose a provider [1-" ++ toString providers.length ++ "]: ")
    match readCount answer with
    | .error fault => throw (.notNumber fault)
    | .ok number =>
      if number = 0 then throw (.noProvider 0)
      match providers[number.toNat - 1]? with
      | some provider => return provider.peer
      | none => throw (.noProvider number.toNat)

/-- Looks up the providers of a hash and shows them. -/
def findProviders (hash : String) : Program σ Desk := do
  let desk ← client.openDesk .purchased
  let desk ← client.perform desk (.openNegotiation (some hash))
  if desk.negotiation.phase ≠ .peerList then failAs desk
  printLine (providerList desk.negotiation)
  return desk

/-- Asks a provider for its offer, and for the wallet once more if it is not known. -/
def requestOffer (desk : Desk) (peer : String) : Program σ Desk := do
  let desk ← client.perform desk (.selectPeer peer)
  if desk.negotiation.phase ≠ .confirming then failAs desk
  if desk.negotiation.balance.isNone then client.perform desk .refreshWallet
  else return desk

/-- Buys a file from one of its providers. -/
def download (hash : String) (peer : Option String) (yes : Bool) : Program σ Unit := do
  let desk ← client.findProviders hash
  let peer ← choosePeer desk peer
  let desk ← client.requestOffer desk peer
  let receipt ← orRefuse desk.negotiation.receipt
  printLine receipt.print
  let agreed ← if yes then pure true else confirm "Buy this file?"
  if agreed then
    let desk ← client.perform desk .confirmPurchase
    match desk.negotiation.saved with
    | some saved => printLine ("Saved to " ++ saved.path)
    | none => failAs desk
  else
    let _ ← client.perform desk .declinePurchase
    printLine "Declined"

/-- Selects rows by their hashes; one that is selected already stays so. -/
def selectRows (desk : Desk) : List String → Program σ Desk
  | [] => return desk
  | hash :: rest => do
    if desk.grid.selection.contains hash then selectRows desk rest
    else
      let desk ← client.perform desk (.toggleRow hash)
      if desk.grid.selection.contains hash then selectRows desk rest
      else throw (.told desk.status)

/-- Carries out a batch action on some rows of a section. -/
def batch (target : Section) (hashes : List String) (action : Action) (price : Option String)
    (yes : Bool) : Program σ Unit := do
  let desk ← client.openDesk target
  let desk ← client.selectRows desk hashes
  let desk ← client.perform desk (.requestBatch action price)
  match desk.pending with
  | none => throw (.told desk.status)
  | some batch =>
    printLine batch.receipt.print
    let agreed ← if yes then pure true else confirm "Proceed?"
    if agreed then
      let desk ← client.perform desk .confirmBatch
      desk.notices.forM printLine
      printLine desk.status
    else
      let _ ← client.perform desk .cancelBatch
      printLine "Cancelled"

/-- Deletes files from a section. -/
def delete (target : String) (hashes : List String) (yes : Bool) : Program σ Unit := do
  client.batch (← orRefuse (Section.parse target)) hashes .delete none yes

/-- Hosts a file of a section at a price. -/
def host (source hash price : String) (yes : Bool) : Program σ Unit := do
  client.batch (← orRefuse (Section.parse source)) [hash] .host (some price) yes

/-- Shares a file of a section. -/
def share (source hash : String) (yes : Bool) : Program σ Unit := do
  client.batch (← orRefuse (Section.parse source)) [hash] .share none yes

end FileMarket.CommandLine.Client
