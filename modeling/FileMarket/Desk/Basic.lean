import FileMarket.Grid.Toolbar
import FileMarket.Negotiation.Answer
import FileMarket.Node

/-!
# The desk

What the user works at: the grid, one negotiation, a batch that waits for
confirmation, and a line of status. The desk never talks to the node itself. What
the user does may start jobs; each job ends with one report, which is handed back to
the desk, in whatever order the jobs end.
-/

namespace FileMarket

/-- Work that the desk has started. -/
inductive Job where
  /-- Lists the section of a token. -/
  | load (token : LoadToken)
  /-- Carries out a confirmed batch, record by record. -/
  | batch (action : Action) (origin : Section) (records : List FileRecord)
  /-- Puts a question of the negotiation. A download is also saved. -/
  | request (request : Request)
deriving DecidableEq

/-- What the records of a batch were answered with, by their hashes. -/
abbrev BatchResults := List (String × Outcome (Option String))

/-- What a job brings back. -/
@[reducible]
def Job.Reply : Job → Type
  | .load _ => Outcome (List FileRecord)
  | .batch _ _ _ => BatchResults
  | .request (.wallet _) => Outcome Wallet
  | .request (.providers _) => Outcome (List String)
  | .request (.metadata _) => Outcome FileRecord
  | .request (.download _ _ _) => Outcome SavedFile

/-- The end of a job. -/
inductive Report where
  | loaded (token : LoadToken) (result : Outcome (List FileRecord))
  | batchFinished (action : Action) (origin : Section) (results : BatchResults)
  | walletLoaded (epoch : Nat) (result : Outcome Wallet)
  | peersLoaded (ticket : Ticket) (result : Outcome (List String))
  | metadataLoaded (ticket : Ticket) (result : Outcome FileRecord)
  | transferFinished (ticket : Ticket) (result : Outcome SavedFile)

/-- The report that a job ends with. -/
def Job.report : (job : Job) → job.Reply → Report
  | .load token, result => .loaded token result
  | .batch action origin _, results => .batchFinished action origin results
  | .request (.wallet epoch), result => .walletLoaded epoch result
  | .request (.providers ticket), result => .peersLoaded ticket result
  | .request (.metadata ticket), result => .metadataLoaded ticket result
  | .request (.download ticket _ _), result => .transferFinished ticket result

/-- What the user can do. -/
inductive Command where
  | showSection (target : Section)
  | refresh
  | setFilter (field : FilterField) (tag : String)
  | clearFilters
  | clickColumn (column : Column)
  | setSort (spec : SortSpec)
  | toggleRow (hash : String)
  | toggleAll
  /-- Uses a button of the toolbar, with the price typed for hosting. -/
  | requestBatch (action : Action) (price : Option String)
  | confirmBatch
  | cancelBatch
  | closeInfo
  | openNegotiation (hash : Option String)
  | submitHash (hash : String)
  | refreshPeers
  | refreshWallet
  | selectPeer (peer : String)
  | confirmPurchase
  | declinePurchase
  | closeNegotiation

/-- The state of the desk. -/
structure Desk where
  grid : Grid
  negotiation : Negotiation
  /-- The batch that waits for confirmation. -/
  pending : Option PendingBatch
  batchRunning : Bool
  /-- The record whose attributes are shown. -/
  info : Option FileRecord
  status : String
  /-- The node's notices and the failures of batches, the first one first. -/
  notices : List String
deriving DecidableEq

namespace Desk

/-- The state after a step, and the jobs that it starts. -/
abbrev Stepped := Desk × List Job

/-- A desk that shows a section, and the job that lists it. -/
def opened (target : Section) : Stepped :=
  let (grid, token) := (Grid.new target).switchTo target
  ({ grid := grid
     negotiation := .new
     pending := none
     batchRunning := false
     info := none
     status := "Ready"
     notices := [] }, [.load token])

/-- Shows why a step was refused. -/
def refuse (desk : Desk) (error : MarketError) : Stepped :=
  ({ desk with status := error.message }, [])

/-- Takes over a step of the grid, or shows why it was refused. -/
def putGrid (desk : Desk) : Outcome Grid → Stepped
  | .ok grid => ({ desk with grid := grid }, [])
  | .error error => desk.refuse error

/-- Takes over a step of the negotiation, and puts its question or shows why it was
refused. -/
def putNegotiation (desk : Desk) : Negotiation.Stepped → Stepped
  | (negotiation, .ok request) => ({ desk with negotiation := negotiation }, [.request request])
  | (negotiation, .error error) => { desk with negotiation := negotiation }.refuse error

/-- Hands out the notices collected since the last time. -/
def takeNotices (desk : Desk) : Desk × List String :=
  ({ desk with notices := [] }, desk.notices)

/-- The phase of the negotiation while one is open. -/
def negotiationPhase? (desk : Desk) : Option Phase :=
  if desk.negotiation.isOpen then some desk.negotiation.phase else none

end Desk

end FileMarket
