import FileMarket.Negotiation.Basic

/-!
# Steps of a negotiation

What the user can do in a negotiation. A refused step gives the reason for the
refusal; besides, a refusal for a bad hash or by the balance gate is remembered
as the error shown.
-/

namespace FileMarket.Negotiation

open FileMarket.Text

/-- The state after a step, and the request it makes or the reason it is refused for. -/
abbrev Stepped := Negotiation × Outcome Request

/-- A refusal that leaves everything as it was. -/
def refuse (n : Negotiation) (error : MarketError) : Stepped := (n, .error error)

/-- A refusal that is remembered. -/
def fail (n : Negotiation) (error : MarketError) : Stepped :=
  ({ n with error := some error }, .error error)

/-- Issues a ticket and makes the request for it. -/
def ask (n : Negotiation) (peer : Option String) (request : Ticket → Request) : Stepped :=
  let (n, ticket) := n.issue peer
  (n, .ok (request ticket))

/-- Looks up the providers of a hash. A hash is made of ASCII letters and digits;
anything else is answered at once, as a hash that nobody provides. -/
def submit (n : Negotiation) (text : String) : Stepped :=
  match n.requireIdle "a search" with
  | .error error => n.refuse error
  | .ok () =>
    if n.phase = .confirming then
      n.refuse (.unavailable "Decline the current offer before searching again.")
    else
      let hash := trim text
      if hash.isEmpty then n.fail (.validation "Please input a hash value.")
      else
        let cleared : Negotiation :=
          { n with
            hash := hash
            providers := []
            chosen := none
            metadata := none
            saved := none
            error := none }
        if hash.toList.all Char.isAlphanum then
          { cleared with resume := .idle, phase := .searching }.ask none .providers
        else { cleared with phase := .notFound }.fail noProviders

/-- Opens a negotiation, in place of any earlier one. It asks for the wallet, and
for the providers of a hash when one is given and fit to be looked up. -/
def start (n : Negotiation) (hash : Option String) : Negotiation × List Request :=
  let opened : Negotiation := { closed (n.epoch + 1) with isOpen := true, walletPending := true }
  let wallet : Request := .wallet opened.epoch
  match hash with
  | none => (opened, [wallet])
  | some hash => match opened.submit hash with
    | (n, .ok request) => (n, [wallet, request])
    | (n, .error _) => (n, [wallet])

/-- Ends a negotiation from any state. Answers that come later are not taken. -/
def close (n : Negotiation) : Negotiation := closed (n.epoch + 1)

/-- Looks up the providers again, from the peer list. -/
def refreshPeers (n : Negotiation) : Stepped :=
  match n.requireIdle "a search" with
  | .error error => n.refuse error
  | .ok () =>
    if !n.canRefreshPeers then n.refuse (.unavailable "There is no peer list to refresh.")
    else { n with resume := .peerList, phase := .searching, error := none }.ask none .providers

/-- Chooses a provider and asks it for the file's metadata. Choosing another one
while the metadata is waited for takes its place. -/
def selectPeer (n : Negotiation) (peer : String) : Stepped :=
  match n.requireOpen with
  | .error error => n.refuse error
  | .ok () =>
    if n.phase ≠ .peerList ∧ n.phase ≠ .metadataLoading then
      n.refuse (.unavailable "No peer list to choose from.")
    else if !n.providers.any (·.peer == peer) then
      n.refuse (.notFound ("Unknown peer: " ++ peer))
    else
      { n with
        chosen := some peer
        metadata := none
        error := none
        phase := .metadataLoading }.ask (some peer) .metadata

/-- Goes back from an offer to the peer list. -/
def decline (n : Negotiation) : Negotiation × Outcome Unit :=
  if n.phase ≠ .confirming then (n, .error (.unavailable "Nothing to decline."))
  else
    ({ n with chosen := none, metadata := none, error := none, phase := .peerList }, .ok ())

/-- The offer that a receipt is about, in the phases that have one. -/
def offer? (n : Negotiation) : Option FileRecord :=
  match n.phase with
  | .confirming | .transferring | .complete | .failed => n.metadata
  | _ => none

/-- The receipt of the purchase on offer. -/
def receipt (n : Negotiation) : Outcome Receipt :=
  match n.offer? with
  | none => .error (.unavailable "No file has been chosen yet.")
  | some record => (BalanceGate.check n.balance record.price).map fun gate =>
      .purchase gate record

/-- Commits the purchase, or tries a failed transfer again. -/
def confirm (n : Negotiation) : Stepped :=
  match n.requireIdle "a transfer" with
  | .error error => n.refuse error
  | .ok () =>
    if n.phase ≠ .confirming ∧ n.phase ≠ .failed then
      n.refuse (.unavailable "Nothing to confirm.")
    else match n.metadata, n.chosen with
      | some record, some peer =>
        match BalanceGate.check n.balance record.price with
        | .error error => n.fail error
        | .ok gate =>
          { n with error := none, phase := .transferring }.ask (some peer)
            fun ticket => .download ticket gate.price record
      | _, _ => n.refuse (.unavailable "No file has been chosen yet.")

/-- Asks for the wallet again. -/
def refreshWallet (n : Negotiation) : Stepped :=
  match n.requireOpen with
  | .error error => n.refuse error
  | .ok () =>
    if n.walletPending then n.refuse (.busy "a wallet fetch")
    else ({ n with walletPending := true, walletError := none }, .ok (.wallet n.epoch))

end FileMarket.Negotiation
