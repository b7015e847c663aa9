import FileMarket.Desk.Command

/-!
# Reports to the desk

What the end of a job makes of the desk. Only the end of a batch starts a further job:
the section it was confirmed in is listed again if it is still shown.
-/

namespace FileMarket.Desk

/-- The status after an accepted listing. -/
def loadStatus (grid : Grid) (target : Section) : String :=
  match grid.error with
  | some error => "Failed to load " ++ target.label ++ ": " ++ error.message
  | none => fileCount grid.records.length ++ " in " ++ target.label

/-- The end of a load. -/
def loaded (desk : Desk) (token : LoadToken) (result : Outcome (List FileRecord)) : Desk :=
  match desk.grid.finishLoad token result with
  | (grid, .accepted) => { desk with grid := grid, status := loadStatus grid token.target }
  | (_, .stale) => desk

/-- What the user is told about one record of a batch. -/
def batchNotice : String × Outcome (Option String) → Option String
  | (_, .ok notice) => notice
  | (hash, .error error) => some (hash ++ ": " ++ error.message)

/-- Whether a record of a batch failed. -/
def isFailure : String × Outcome (Option String) → Bool
  | (_, .ok _) => false
  | (_, .error _) => true

/-- The status after a batch. -/
def batchStatus (action : Action) (results : BatchResults) : String :=
  let failed := results.countP isFailure
  if failed = 0 then action.label ++ " finished for " ++ fileCount results.length
  else action.label ++ " failed for " ++ toString failed ++ " of " ++ fileCount results.length

/-- The end of a batch. -/
def batchFinished (desk : Desk) (action : Action) (origin : Section) (results : BatchResults) :
    Stepped :=
  let desk := { desk with
    batchRunning := false
    notices := desk.notices ++ results.filterMap batchNotice
    status := batchStatus action results }
  if desk.grid.current ≠ origin then (desk, [])
  else
    let (grid, token) := desk.grid.clearSelection.reload
    ({ desk with grid := grid }, [.load token])

/-- The rows after a purchase: the history shows it at once. -/
def withPurchase (grid : Grid) : Outcome SavedFile → Grid
  | .ok saved => if grid.current = .purchased then grid.append saved.record else grid
  | .error _ => grid

/-- The end of a transfer. -/
def transferFinished (desk : Desk) (ticket : Ticket) (result : Outcome SavedFile) : Desk :=
  match desk.negotiation.transferFinished ticket result with
  | (negotiation, .accepted) =>
    { desk with
      negotiation := negotiation
      grid := withPurchase desk.grid result
      status := match negotiation.saved with
        | some saved => "Saved to " ++ saved.path
        | none => desk.status }
  | (_, .stale) => desk

/-- Takes in the end of a job. -/
def receive (desk : Desk) : Report → Stepped
  | .loaded token result => (desk.loaded token result, [])
  | .batchFinished action origin results => desk.batchFinished action origin results
  | .walletLoaded epoch result =>
    ({ desk with negotiation := (desk.negotiation.walletLoaded epoch result).1 }, [])
  | .peersLoaded ticket result =>
    ({ desk with negotiation := (desk.negotiation.peersLoaded ticket result).1 }, [])
  | .metadataLoaded ticket result =>
    ({ desk with negotiation := (desk.negotiation.metadataLoaded ticket result).1 }, [])
  | .transferFinished ticket result => (desk.transferFinished ticket result, [])

end FileMarket.Desk
