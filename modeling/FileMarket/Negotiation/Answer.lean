import FileMarket.Negotiation.Step

/-!
# Answers in a negotiation

What the node's answers make of a negotiation. An answer with a ticket is taken
only in the phase that waits for it and only if the ticket is the last one
issued; a wallet is taken when it was asked for since the negotiation was
opened.
-/

namespace FileMarket.Negotiation

open FileMarket.Text

/-- The providers with the given ids: blanks around an id do not count, blank and
repeated ids are dropped, and a provider known before keeps its price. -/
def listProviders (known : List Provider) : List Provider → List String → List Provider
  | listed, [] => listed
  | listed, id :: rest =>
    let peer := trim id
    if peer.isEmpty || listed.any (·.peer == peer) then listProviders known listed rest
    else
      let price := (known.find? (·.peer == peer)).bind (·.price)
      listProviders known (listed ++ [⟨peer, price⟩]) rest

/-- The answer to a provider lookup. -/
def peersLoaded (n : Negotiation) (ticket : Ticket) (result : Outcome (List String)) :
    Negotiation × Reception :=
  if !n.awaits .searching ticket then (n, .stale)
  else
    let n := { n with pending := none }
    match result with
    | .ok ids =>
      let providers := listProviders n.providers [] ids
      if providers.isEmpty then
        ({ n with providers := [], phase := .notFound, error := some noProviders }, .accepted)
      else ({ n with providers := providers, phase := .peerList, error := none }, .accepted)
    | .error error => ({ n with phase := n.resume, error := some error }, .accepted)

/-- The providers with the price of one of them set. -/
def setPrice (peer : Option String) (price : Option Binary64) : List Provider → List Provider
  | [] => []
  | p :: rest =>
    if peer = some p.peer then ⟨p.peer, price⟩ :: rest else p :: setPrice peer price rest

/-- The answer to a request for metadata. A record without a hash is that of the
file looked up. -/
def metadataLoaded (n : Negotiation) (ticket : Ticket) (result : Outcome FileRecord) :
    Negotiation × Reception :=
  if !n.awaits .metadataLoading ticket then (n, .stale)
  else
    let n := { n with pending := none }
    match result with
    | .ok record =>
      let record := if record.hash.isEmpty then { record with hash := n.hash } else record
      ({ n with
          providers := setPrice ticket.peer record.price n.providers
          metadata := some record
          phase := .confirming }, .accepted)
    | .error error =>
      ({ n with chosen := none, metadata := none, phase := .peerList, error := some error },
        .accepted)

/-- The end of a transfer. -/
def transferFinished (n : Negotiation) (ticket : Ticket) (result : Outcome SavedFile) :
    Negotiation × Reception :=
  if !n.awaits .transferring ticket then (n, .stale)
  else
    let n := { n with pending := none }
    match result with
    | .ok saved => ({ n with saved := some saved, phase := .complete }, .accepted)
    | .error error => ({ n with error := some error, phase := .failed }, .accepted)

/-- The answer to a request for the wallet. -/
def walletLoaded (n : Negotiation) (epoch : Nat) (result : Outcome Wallet) :
    Negotiation × Reception :=
  if !n.isOpen || epoch != n.epoch then (n, .stale)
  else
    let n := { n with walletPending := false }
    match result with
    | .ok wallet => ({ n with balance := some wallet.current, walletError := none }, .accepted)
    | .error error => ({ n with walletError := some error }, .accepted)

end FileMarket.Negotiation
