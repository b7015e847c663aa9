import FileMarket.Proofs.Desk.Commutation
import FileMarket.Proofs.Desk.Driving
import FileMarket.Proofs.Negotiation.Providers
import FileMarket.Proofs.Negotiation.Receipts
import FileMarket.Proofs.Price

/-!
# The way to an offer

A purchase at the desk, from the hash to the payload, when each command is carried out with all that
follows from it. Two states of the negotiation lie on the way: it stands before the peers that are
named for its hash (`AtPeers`), and before the offer of one of them (`AtOffer`). For each command
there is what the node is told, and what its replies make of the negotiation.
-/

set_option autoImplicit false

namespace FileMarket

open Text

namespace Negotiation

/-- A negotiation that stands before the peers that are named for its hash. -/
structure AtPeers (n : Negotiation) (hash : String) (peers : List String) (purse : Purse) :
    Prop where
  isOpen : n.isOpen = true
  listed : n.phase = .peerList
  about : n.hash = hash
  peers : n.providers.map (·.peer) = peers
  purse : n.purse = purse
  unsaved : n.saved = none

/-- A negotiation that stands before the offer of a peer. -/
structure AtOffer (n : Negotiation) (hash peer : String) (record : FileRecord) (purse : Purse) :
    Prop where
  isOpen : n.isOpen = true
  offered : n.phase = .confirming
  about : n.hash = hash
  chosen : n.chosen = some peer
  metadata : n.metadata = some (record.hashed hash)
  purse : n.purse = purse
  unsaved : n.saved = none

/-- Once the node has replied about the wallet, no reply is waited for. -/
theorem Purse.isAwaited_take (purse : Purse) (reply : Outcome Wallet) :
    (purse.take reply).isAwaited = false := by
  cases reply <;> rfl

section Steps

variable {n : Negotiation} {hash peer : String} {peers : List String} {purse : Purse}

/-! ## Opening -/

/-- A negotiation that is opened with a hash asks for the wallet and for the providers. -/
theorem start_of_isHash (n : Negotiation) {text : String} (fit : IsHash (trim text)) :
    n.start (some text) =
      ((opened (n.epoch + 1)).sought (trim text),
        [.wallet (n.epoch + 1), .providers ⟨n.epoch + 1, 1, trim text, none⟩]) := by
  have hrule := transition_start n (some text)
  generalize hstart : n.start (some text) = started at hrule ⊢
  obtain ⟨n', requests⟩ := started
  cases hrule with
  | startBlank _ blank => exact absurd blank fit.1
  | startUnfit _ unfit => exact absurd fit unfit
  | startSearch => rfl

/-- With anything else it asks for the wallet alone, and there is no list of peers. -/
theorem start_of_not_isHash (n : Negotiation) {text : String} (unfit : ¬ IsHash (trim text)) :
    (n.start (some text)).2 = [.wallet (n.epoch + 1)] ∧
      (n.start (some text)).1.phase ≠ .peerList := by
  have hrule := transition_start n (some text)
  generalize n.start (some text) = started at hrule ⊢
  obtain ⟨n', requests⟩ := started
  cases hrule with
  | startBlank => exact ⟨rfl, nofun⟩
  | startUnfit => exact ⟨rfl, nofun⟩
  | startSearch _ fit => exact absurd fit unfit

/-- A reply about the wallet does not move a negotiation on. -/
theorem phase_walletLoaded (n : Negotiation) (epoch : Nat) (reply : Outcome Wallet) :
    (n.walletLoaded epoch reply).1.phase = n.phase := by
  rw [walletLoaded_eq]
  split <;> rfl

/-! ## Peers -/

/-- A lookup for which some peer is named leads to the peers. -/
theorem atPeers_peersLoaded {ticket : Ticket} (awaited : n.awaits .searching ticket = true)
    (unsaved : n.saved = none) {ids : List String} (named : namedPeers ids ≠ []) :
    (n.peersLoaded ticket (.ok ids)).1.AtPeers n.hash (namedPeers ids) n.purse := by
  have hfound : listProviders n.providers [] ids ≠ [] := by
    rw [listProviders_eq]
    simpa using named
  have hloaded : (n.peersLoaded ticket (.ok ids)).1 =
      { n with
        phase := .peerList
        pending := none
        providers := listProviders n.providers [] ids
        error := none } := by
    simp [peersLoaded, awaited, hfound]
  rw [hloaded]
  exact ⟨((awaits_eq_true_iff n _ ticket).1 awaited).1, rfl, rfl, map_peer_listProviders _ _, rfl,
    unsaved⟩

/-- Any other first lookup does not. -/
theorem phase_peersLoaded_of_unnamed {ticket : Ticket}
    (awaited : n.awaits .searching ticket = true) (first : n.resume = .idle)
    {reply : Outcome (List String)} (unnamed : ∀ ids, reply = .ok ids → namedPeers ids = []) :
    (n.peersLoaded ticket reply).1.phase ≠ .peerList := by
  cases reply with
  | error error => simp [peersLoaded, awaited, first]
  | ok ids =>
    have hnone : listProviders n.providers [] ids = [] := by
      rw [listProviders_eq, unnamed ids rfl, List.map_nil]
    simp [peersLoaded, awaited, hnone]

/-- The negotiation that asks a peer for its offer. -/
def choosing (n : Negotiation) (peer : String) : Negotiation :=
  { n with
    seq := n.seq + 1
    phase := .metadataLoading
    pending := some ⟨n.epoch, n.seq + 1, n.hash, some peer⟩
    chosen := some peer
    metadata := none
    error := none }

/-- A peer that is listed is asked for its offer. -/
theorem AtPeers.selectPeer (h : n.AtPeers hash peers purse) (known : peer ∈ peers) :
    n.selectPeer peer =
      (n.choosing peer, .ok (.metadata ⟨n.epoch, n.seq + 1, n.hash, some peer⟩)) := by
  have hlisted : n.providers.any (·.peer == peer) = true := by
    rw [← h.peers] at known
    simpa using known
  simp [Negotiation.selectPeer, requireOpen, h.isOpen, h.listed, hlisted, ask, issue, choosing]

/-- A peer that is not listed is refused. -/
theorem AtPeers.selectPeer_of_not_mem (h : n.AtPeers hash peers purse) (unknown : peer ∉ peers) :
    n.selectPeer peer = n.refuse (.notFound ("Unknown peer: " ++ peer)) := by
  have hlisted : n.providers.any (·.peer == peer) = false := by
    rw [← h.peers] at unknown
    simpa using unknown
  simp [Negotiation.selectPeer, requireOpen, h.isOpen, h.listed, hlisted]

/-! ## Offers -/

/-- The offer of the chosen peer is taken. -/
theorem AtPeers.atOffer (h : n.AtPeers hash peers purse) (peer : String) (record : FileRecord) :
    ((n.choosing peer).metadataLoaded ⟨n.epoch, n.seq + 1, n.hash, some peer⟩
      (.ok record)).1.AtOffer hash peer record purse := by
  have hawaited : (n.choosing peer).awaits .metadataLoading
      ⟨n.epoch, n.seq + 1, n.hash, some peer⟩ = true :=
    (awaits_eq_true_iff _ _ _).2 ⟨h.isOpen, rfl, rfl⟩
  unfold metadataLoaded
  rw [hawaited]
  exact ⟨h.isOpen, rfl, h.about, rfl, congrArg (fun hash => some (record.hashed hash)) h.about,
    h.purse, h.unsaved⟩

/-- A peer that makes no offer leaves the negotiation without one. -/
theorem AtPeers.phase_of_no_offer (h : n.AtPeers hash peers purse) (peer : String)
    (error : MarketError) :
    ((n.choosing peer).metadataLoaded ⟨n.epoch, n.seq + 1, n.hash, some peer⟩
      (.error error)).1.phase ≠ .confirming := by
  have hawaited : (n.choosing peer).awaits .metadataLoading
      ⟨n.epoch, n.seq + 1, n.hash, some peer⟩ = true :=
    (awaits_eq_true_iff _ _ _).2 ⟨h.isOpen, rfl, rfl⟩
  unfold metadataLoaded
  rw [hawaited]
  nofun

/-- The end of the transfer that an offer leads to is taken, and with it the file that was saved. -/
theorem AtOffer.saved_transferFinished {record : FileRecord}
    (h : n.AtOffer hash peer record purse) (result : Outcome SavedFile) :
    (n.committed.transferFinished n.nextTicket result).1.saved = result.toOption := by
  have hawaited : n.committed.awaits .transferring n.nextTicket = true :=
    (awaits_eq_true_iff _ _ _).2 ⟨h.isOpen, rfl, rfl⟩
  unfold transferFinished
  rw [hawaited]
  cases result with
  | ok saved => rfl
  | error error => exact h.unsaved

/-- The balance is the one in the purse. -/
theorem AtOffer.balance {record : FileRecord} (h : n.AtOffer hash peer record purse) :
    n.balance = purse.balance :=
  congrArg Purse.balance h.purse

/-- The receipt of an offer is a matter of the balance gate. -/
theorem AtOffer.receipt_eq {record : FileRecord} (h : n.AtOffer hash peer record purse) :
    n.receipt = (BalanceGate.check purse.balance record.price).map fun gate =>
      .purchase gate (record.hashed hash) := by
  have hreceipt := receipt_of_offered (Or.inl h.offered) h.metadata
  rwa [FileRecord.hashed_price, h.balance] at hreceipt

/-- What is in the purse makes no difference to an offer. -/
theorem AtOffer.withPurse {record : FileRecord} (h : n.AtOffer hash peer record purse)
    (purse' : Purse) : (n.withPurse purse').AtOffer hash peer record purse' :=
  ⟨h.isOpen, h.offered, h.about, h.chosen, h.metadata, rfl, h.unsaved⟩

end Steps

end Negotiation

/-! ## Commands -/

section Commands

open Negotiation

variable {σ : Type} (node : Node σ) (today : Date) (desk : Desk) (world : World σ)

/-- A hash that can be looked up is looked up, after the wallet. -/
theorem Desk.dispatch_openNegotiation {text : String} (fit : IsHash (trim text)) :
    ∃ desk', desk.dispatch node today world (.openNegotiation (some text)) =
        (desk', world.told node [.wallet, .findProviders (trim text)]) ∧
      (∀ ids, node.replies world.server [.wallet] (.findProviders (trim text)) = .ok ids →
        namedPeers ids ≠ [] → desk'.negotiation.AtPeers (trim text) (namedPeers ids)
          ((⟨none, true, none⟩ : Purse).take (node.replies world.server [] .wallet))) ∧
      ((∀ ids, node.replies world.server [.wallet] (.findProviders (trim text)) = .ok ids →
        namedPeers ids = []) → desk'.negotiation.phase ≠ .peerList) := by
  let epoch := desk.negotiation.epoch + 1
  let ticket : Ticket := ⟨epoch, 1, trim text, none⟩
  let purse := (⟨none, true, none⟩ : Purse).take (node.replies world.server [] .wallet)
  let looking := ((Negotiation.opened epoch).sought (trim text)).withPurse purse
  let reply := node.replies world.server [.wallet] (.findProviders (trim text))
  have hdispatch : desk.dispatch node today world (.openNegotiation (some text)) =
      (desk.withNegotiation (looking.peersLoaded ticket reply).1,
        world.told node [.wallet, .findProviders (trim text)]) := by
    have hhandle : desk.handle today (.openNegotiation (some text)) =
        (desk.withNegotiation ((Negotiation.opened epoch).sought (trim text)),
          [.request (.wallet epoch), .request (.providers ticket)]) := by
      simp only [handle, openNegotiation, start_of_isHash desk.negotiation fit]
      rfl
    unfold dispatch
    rw [hhandle]
    dsimp only
    rw [Desk.drive_of_answered node today _ world rfl rfl, receive_walletLoaded,
      if_pos ⟨rfl, rfl⟩, Desk.drive_of_answered node today _ _ rfl rfl, Desk.drive_nil]
    rfl
  have hawaited : looking.awaits .searching ticket = true :=
    (awaits_eq_true_iff _ _ _).2 ⟨rfl, rfl, rfl⟩
  refine ⟨_, hdispatch, fun ids hids named => ?_, phase_peersLoaded_of_unnamed hawaited rfl⟩
  rw [show reply = .ok ids from hids]
  exact atPeers_peersLoaded hawaited rfl named

/-- For anything else the node is asked for the wallet alone, and no peers are found. -/
theorem Desk.dispatch_openNegotiation_of_not_isHash {text : String}
    (unfit : ¬ IsHash (trim text)) :
    ∃ desk', desk.dispatch node today world (.openNegotiation (some text)) =
        (desk', world.told node [.wallet]) ∧ desk'.negotiation.phase ≠ .peerList := by
  obtain ⟨hrequests, hphase⟩ := start_of_not_isHash desk.negotiation unfit
  rcases hstart : desk.negotiation.start (some text) with ⟨n, requests⟩
  rw [hstart] at hrequests hphase
  have hhandle : desk.handle today (.openNegotiation (some text)) =
      (desk.withNegotiation n, [.request (.wallet (desk.negotiation.epoch + 1))]) := by
    simp only [handle, openNegotiation, hstart, hrequests]
    rfl
  unfold dispatch
  rw [hhandle]
  dsimp only
  rw [Desk.drive_of_answered node today _ world rfl rfl, Desk.drive_nil]
  exact ⟨_, rfl, (n.phase_walletLoaded _ _).trans_ne hphase⟩

variable {desk}

section Peers

variable {hash peer : String} {peers : List String} {purse : Purse}

/-- A listed peer is asked for its offer, and what it replies decides whether there is one. -/
theorem Desk.dispatch_selectPeer (h : desk.negotiation.AtPeers hash peers purse)
    (known : peer ∈ peers) :
    ∃ desk', desk.dispatch node today world (.selectPeer peer) =
        (desk', world.told node [.requestMetadata peer hash]) ∧
      (∀ record, node.replies world.server [] (.requestMetadata peer hash) = .ok record →
        desk'.negotiation.AtOffer hash peer record purse) ∧
      ((∀ record, node.replies world.server [] (.requestMetadata peer hash) ≠ .ok record) →
        desk'.negotiation.phase ≠ .confirming) := by
  let n := desk.negotiation
  let ticket : Ticket := ⟨n.epoch, n.seq + 1, n.hash, some peer⟩
  have hdispatch : desk.dispatch node today world (.selectPeer peer) =
      (desk.withNegotiation ((n.choosing peer).metadataLoaded ticket
          (node.replies world.server [] (.requestMetadata peer n.hash))).1,
        world.told node [.requestMetadata peer n.hash]) := by
    have hhandle : desk.handle today (.selectPeer peer) =
        (desk.withNegotiation (n.choosing peer), [.request (.metadata ticket)]) := by
      simp only [handle, putNegotiation, h.selectPeer known]
      rfl
    unfold dispatch
    rw [hhandle]
    dsimp only
    rw [Desk.drive_of_answered node today _ world rfl rfl, Desk.drive_nil]
    rfl
  rw [show n.hash = hash from h.about] at hdispatch
  refine ⟨_, hdispatch, fun record hrecord => ?_, fun hnone => ?_⟩
  · rw [hrecord]
    exact h.atOffer peer record
  · cases hreply : node.replies world.server [] (.requestMetadata peer hash) with
    | ok record => exact absurd hreply (hnone record)
    | error error => exact h.phase_of_no_offer peer error

/-- A peer that is not listed is not asked. -/
theorem Desk.dispatch_selectPeer_of_not_mem (h : desk.negotiation.AtPeers hash peers purse)
    (unknown : peer ∉ peers) :
    ∃ desk', desk.dispatch node today world (.selectPeer peer) = (desk', world) ∧
      desk'.negotiation.phase ≠ .confirming := by
  have hhandle : desk.handle today (.selectPeer peer) =
      desk.refuse (.notFound ("Unknown peer: " ++ peer)) := by
    simp only [handle, putNegotiation, h.selectPeer_of_not_mem unknown]
    rfl
  unfold dispatch
  rw [hhandle]
  refine ⟨_, Desk.drive_nil node today _ world, ?_⟩
  show desk.negotiation.phase ≠ .confirming
  rw [h.listed]
  nofun

end Peers

section Offers

variable {hash peer : String} {record : FileRecord} {purse : Purse}
  (h : desk.negotiation.AtOffer hash peer record purse)
include h

/-- The wallet can be asked for again. -/
theorem Desk.dispatch_refreshWallet (idle : purse.isAwaited = false) :
    ∃ desk', desk.dispatch node today world .refreshWallet =
        (desk', world.told node [.wallet]) ∧
      desk'.negotiation.AtOffer hash peer record
        (purse.take (node.replies world.server [] .wallet)) := by
  let n := desk.negotiation
  have hidle : n.walletPending = false := (congrArg Purse.isAwaited h.purse).trans idle
  have hpurse : (⟨n.balance, true, none⟩ : Purse).take (node.replies world.server [] .wallet) =
      purse.take (node.replies world.server [] .wallet) := by
    rw [show n.balance = purse.balance from h.balance]
    cases node.replies world.server [] .wallet <;> rfl
  have hhandle : desk.handle today .refreshWallet =
      (desk.withNegotiation (n.withPurse ⟨n.balance, true, none⟩),
        [.request (.wallet n.epoch)]) := by
    have hopen : desk.negotiation.requireOpen = .ok () := if_pos h.isOpen
    simp only [handle, putNegotiation, refreshWallet, hopen]
    simp only [show desk.negotiation.walletPending = false from hidle, Bool.false_eq_true, if_false]
    rfl
  have hdispatch : desk.dispatch node today world .refreshWallet =
      (desk.withPurse (purse.take (node.replies world.server [] .wallet)),
        world.told node [.wallet]) := by
    unfold dispatch
    rw [hhandle]
    dsimp only
    rw [Desk.drive_of_answered node today _ world rfl rfl, receive_walletLoaded,
      if_pos ⟨h.isOpen, rfl⟩, Desk.drive_nil, ← hpurse]
    rfl
  exact ⟨_, hdispatch, h.withPurse _⟩

/-- The payment goes to the peer of the offer, for the hash and at a given price. -/
theorem Desk.call_payment (price : Binary64) (server : σ) :
    (Job.request (.download desk.negotiation.nextTicket price (record.hashed hash))).call node
        server =
      (.paid desk.negotiation.nextTicket price (record.hashed hash)
          (node.replies server [] (.download peer hash price)),
        node.after server [.download peer hash price]) := by
  have hpeer : desk.negotiation.nextTicket.peer.getD "" = peer := by
    show desk.negotiation.chosen.getD "" = peer
    rw [h.chosen]
    rfl
  have habout : desk.negotiation.nextTicket.hash = hash := h.about
  rw [Job.call_download, hpeer, habout]

section Passed

variable {gate : BalanceGate} (passed : BalanceGate.check purse.balance record.price = .ok gate)
include passed

/-- An offer that the balance gate lets through is paid for. -/
theorem Desk.handle_confirmPurchase :
    desk.handle today .confirmPurchase =
      (desk.withNegotiation desk.negotiation.committed,
        [.request (.download desk.negotiation.nextTicket gate.price (record.hashed hash))]) := by
  have hconfirm := confirm_of_offered h.isOpen (Or.inl h.offered) h.metadata h.chosen
  rw [FileRecord.hashed_price, h.balance, passed] at hconfirm
  simp only [handle, confirmPurchase, hconfirm]
  rfl

/-- A payment that brings no payload ends the purchase. -/
theorem Desk.dispatch_confirmPurchase_of_error {error : MarketError}
    (hreply : node.replies world.server [] (.download peer hash gate.price) = .error error) :
    ∃ desk', desk.dispatch node today world .confirmPurchase =
        (desk', world.told node [.download peer hash gate.price]) ∧
      desk'.negotiation.saved = none := by
  have hcall := Desk.call_payment node h gate.price world.server
  rw [hreply] at hcall
  unfold dispatch
  rw [Desk.handle_confirmPurchase today h passed]
  dsimp only
  rw [Desk.drive_of_answered node today _ world hcall rfl, Desk.drive_nil]
  refine ⟨_, rfl, ?_⟩
  rw [(Desk.receive_parts _ _).negotiation]
  exact h.saved_transferFinished (.error error)

/-- A payload that a payment brings is saved in the directory. -/
theorem Desk.dispatch_confirmPurchase_of_ok {payload : Payload}
    (hreply : node.replies world.server [] (.download peer hash gate.price) = .ok payload) :
    let saved := world.directory.save
      (payloadName payload.fileName record.name record.extension) payload.data
    ∃ desk', desk.dispatch node today world .confirmPurchase =
        (desk', ⟨node.after world.server [.download peer hash gate.price], saved.1⟩) ∧
      desk'.negotiation.saved.map (·.path) = saved.2.toOption := by
  intro saved
  have hcall := Desk.call_payment node h gate.price world.server
  rw [hreply] at hcall
  have hsaving : (Arrival.start desk.negotiation.nextTicket gate.price (record.hashed hash)
      payload).saving =
        .start (payloadName payload.fileName record.name record.extension) payload.data := by
    unfold FileRecord.hashed
    split <;> rfl
  have hsaved : world.directory.finish
      (.start (payloadName payload.fileName record.name record.extension) payload.data) = saved :=
    rfl
  clear_value saved
  unfold dispatch
  rw [Desk.handle_confirmPurchase today h passed]
  dsimp only
  rw [Desk.drive_of_arrived node today _ world hcall, List.nil_append, Desk.drive_arrived,
    Arrival.save_eq, hsaving, hsaved]
  refine ⟨_, rfl, ?_⟩
  rw [(Desk.receive_parts _ _).negotiation]
  refine (congrArg _ (h.saved_transferFinished _)).trans ?_
  cases saved.2 <;> rfl

end Passed

end Offers

end Commands

end FileMarket
