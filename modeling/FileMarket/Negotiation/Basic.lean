import FileMarket.Receipt

/-!
# Negotiations

The state of buying one file: the providers of its hash, the one chosen, what
that one offers, and the wallet's balance. A negotiation never talks to the node
itself. A step that needs the node gives a request with a ticket, and an answer
counts only while its ticket is the one waited for.
-/

namespace FileMarket

/-- Where a negotiation stands. -/
inductive Phase where
  | idle
  | searching
  | peerList
  | notFound
  | metadataLoading
  | confirming
  | transferring
  | complete
  | failed
deriving DecidableEq, Repr

namespace Phase

/-- The name of a phase. -/
def name : Phase → String
  | .idle => "Idle"
  | .searching => "Searching"
  | .peerList => "PeerList"
  | .notFound => "NotFound"
  | .metadataLoading => "MetadataLoading"
  | .confirming => "Confirming"
  | .transferring => "Transferring"
  | .complete => "Complete"
  | .failed => "Failed"

/-- Whether an answer is waited for. -/
def isBusy : Phase → Bool
  | .searching | .metadataLoading | .transferring => true
  | _ => false

end Phase

/-- The identity of a request: the negotiation it belongs to, its number in it,
and what it asks about. -/
structure Ticket where
  epoch : Nat
  seq : Nat
  hash : String
  peer : Option String
deriving DecidableEq, Repr

/-- What a negotiation asks of the node. -/
inductive Request where
  | wallet (epoch : Nat)
  | providers (ticket : Ticket)
  | metadata (ticket : Ticket)
  | download (ticket : Ticket) (price : Binary64) (record : FileRecord)
deriving DecidableEq

/-- A payload in the download directory, and the record of the purchase. -/
structure SavedFile where
  path : String
  record : FileRecord
deriving DecidableEq

/-- The state of a negotiation. -/
structure Negotiation where
  /-- The number of times one was opened or closed. -/
  epoch : Nat
  /-- The number of tickets issued since then. -/
  seq : Nat
  isOpen : Bool
  hash : String
  phase : Phase
  /-- The phase that a failed provider lookup goes back to. -/
  resume : Phase
  /-- The ticket of the answer waited for. -/
  pending : Option Ticket
  providers : List Provider
  chosen : Option String
  metadata : Option FileRecord
  balance : Option Binary64
  walletPending : Bool
  /-- Kept apart from `error`, so that later steps do not clear it. -/
  walletError : Option MarketError
  error : Option MarketError
  saved : Option SavedFile
deriving DecidableEq

namespace Negotiation

/-- The closed negotiation of a given epoch. -/
def closed (epoch : Nat) : Negotiation where
  epoch := epoch
  seq := 0
  isOpen := false
  hash := ""
  phase := .idle
  resume := .idle
  pending := none
  providers := []
  chosen := none
  metadata := none
  balance := none
  walletPending := false
  walletError := none
  error := none
  saved := none

/-- Before any negotiation is opened. -/
def new : Negotiation := closed 0

/-- The error of the last step, else that of the wallet. -/
def shownError (n : Negotiation) : Option MarketError := n.error.or n.walletError

/-- Whether the providers can be looked up again. -/
def canRefreshPeers (n : Negotiation) : Bool := n.phase == .peerList

/-- Issues the next ticket, about a given peer or none, and waits for its answer. -/
def issue (n : Negotiation) (peer : Option String) : Negotiation × Ticket :=
  let ticket : Ticket := ⟨n.epoch, n.seq + 1, n.hash, peer⟩
  ({ n with seq := n.seq + 1, pending := some ticket }, ticket)

/-- Whether an answer with a given ticket is waited for in a given phase. -/
def awaits (n : Negotiation) (phase : Phase) (ticket : Ticket) : Bool :=
  n.isOpen && n.phase == phase && n.pending == some ticket

/-- The reason for which a closed negotiation refuses every step. -/
def requireOpen (n : Negotiation) : Outcome Unit :=
  if n.isOpen then .ok () else .error (.unavailable "No download is in progress.")

/-- The reason against beginning something new while an answer is waited for. -/
def requireIdle (n : Negotiation) (what : String) : Outcome Unit := do
  n.requireOpen
  if n.phase.isBusy then throw (.busy what)

/-- The text for a hash that nobody provides, or that is none. -/
def noProviders : MarketError := .notFound "No file found with that hash."

end Negotiation

end FileMarket
