import FileMarket.Desk.Basic

/-!
# Commands at the desk

What each command of the user makes of the desk, and the jobs that it starts.
-/

namespace FileMarket.Desk

/-- The count of some files, in words. -/
def fileCount (n : Nat) : String := toString n ++ " files"

/-- Opens a negotiation in place of any earlier one. -/
def openNegotiation (desk : Desk) (hash : Option String) : Stepped :=
  let (negotiation, requests) := desk.negotiation.start hash
  ({ desk with negotiation := negotiation }, requests.map .request)

/-- Prepares an action that changes a collection, which then waits for confirmation. -/
def prepareBatch (desk : Desk) (action : Action) (price : Option String) : Stepped :=
  match desk.grid.prepareBatch action price with
  | .ok batch =>
    ({ desk with
        status := "Confirm " ++ action.label ++ " of " ++ fileCount batch.records.length
        pending := some batch }, [])
  | .error error => desk.refuse error

/-- Uses a button of the toolbar. -/
def requestBatch (desk : Desk) (action : Action) (price : Option String) : Stepped :=
  let desk := { desk with info := none }
  match action with
  | .info => match desk.grid.info with
    | .ok record => ({ desk with info := some record }, [])
    | .error error => desk.refuse error
  | .download => match desk.grid.downloadTarget with
    | .ok record => desk.openNegotiation (some record.hash)
    | .error error => desk.refuse error
  | .host | .share | .delete => desk.prepareBatch action price

/-- Starts the batch that waits for confirmation. Only one runs at a time. -/
def confirmBatch (desk : Desk) : Stepped :=
  if desk.batchRunning then desk.refuse (.busy "a batch")
  else match desk.pending with
    | none => desk.refuse (.unavailable "Nothing to confirm.")
    | some batch =>
      ({ desk with
          pending := none
          batchRunning := true
          status := batch.action.label ++ " of " ++ fileCount batch.records.length ++
            " in progress" },
        [.batch batch.action batch.origin batch.records])

/-- Commits the purchase on offer. When it is refused and the balance is not known, the
wallet is asked for again. -/
def confirmPurchase (desk : Desk) : Stepped :=
  match desk.negotiation.confirm with
  | (negotiation, .ok request) => ({ desk with negotiation := negotiation }, [.request request])
  | (negotiation, .error error) =>
    let desk := { desk with negotiation := negotiation, status := error.message }
    if negotiation.balance.isSome then (desk, [])
    else match negotiation.refreshWallet with
      | (negotiation, .ok request) =>
        ({ desk with negotiation := negotiation }, [.request request])
      | (_, .error _) => (desk, [])

/-- Carries out a command on a given day. -/
def handle (desk : Desk) (today : Date) : Command → Stepped
  | .showSection target =>
    let (grid, token) := desk.grid.switchTo target
    ({ desk with
        pending := none
        info := none
        grid := grid
        status := "Loading " ++ target.label ++ "..." }, [.load token])
  | .refresh => match desk.grid.refresh? with
    | some (grid, token) => ({ desk with grid := grid }, [.load token])
    | none => desk.refuse (.busy "a refresh")
  | .setFilter field tag => desk.putGrid (desk.grid.setFilter field tag)
  | .clearFilters => ({ desk with grid := desk.grid.clearFilters }, [])
  | .clickColumn column => desk.putGrid (desk.grid.clickColumn column)
  | .setSort spec => desk.putGrid (desk.grid.setSort spec)
  | .toggleRow hash => desk.putGrid (desk.grid.toggleRow hash)
  | .toggleAll => ({ desk with grid := desk.grid.toggleAll today }, [])
  | .requestBatch action price => desk.requestBatch action price
  | .confirmBatch => desk.confirmBatch
  | .cancelBatch =>
    if desk.pending.isSome then ({ desk with pending := none, status := "Cancelled" }, [])
    else (desk, [])
  | .closeInfo => ({ desk with info := none }, [])
  | .openNegotiation hash => desk.openNegotiation hash
  | .submitHash hash => desk.putNegotiation (desk.negotiation.submit hash)
  | .refreshPeers => desk.putNegotiation desk.negotiation.refreshPeers
  | .refreshWallet => desk.putNegotiation desk.negotiation.refreshWallet
  | .selectPeer peer => desk.putNegotiation (desk.negotiation.selectPeer peer)
  | .confirmPurchase => desk.confirmPurchase
  | .declinePurchase => match desk.negotiation.decline with
    | (negotiation, .ok ()) => ({ desk with negotiation := negotiation }, [])
    | (negotiation, .error error) => { desk with negotiation := negotiation }.refuse error
  | .closeNegotiation => ({ desk with negotiation := desk.negotiation.close }, [])

end FileMarket.Desk
