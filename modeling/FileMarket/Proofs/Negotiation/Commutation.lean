import FileMarket.Proofs.Negotiation.Transition

/-!
# Events that commute with the wallet

What a negotiation knows of the wallet is kept apart from the rest, as its purse. An answer about
the wallet changes the purse alone (`walletLoaded_eq`). An event that spares the purse does the same
whatever is in it (`perform_withPurse`), so it can come before or after such an answer and neither
the negotiation nor either response tells the difference (`commutes_wallet`).
-/

set_option autoImplicit false

namespace FileMarket.Negotiation

open FileMarket.Text

/-! ## The purse -/

/-- What a negotiation knows of the wallet: the balance, whether an answer is waited for, and the
error of the last one. -/
structure Purse where
  balance : Option Binary64
  isAwaited : Bool
  error : Option MarketError

/-- What an answer makes of the purse. A failure leaves the balance known before. -/
def Purse.take (purse : Purse) : Outcome Wallet → Purse
  | .ok wallet => ⟨some wallet.current, false, none⟩
  | .error error => ⟨purse.balance, false, some error⟩

/-- The purse of a negotiation. -/
def purse (n : Negotiation) : Purse := ⟨n.balance, n.walletPending, n.walletError⟩

/-- A negotiation with another purse. -/
def withPurse (n : Negotiation) (purse : Purse) : Negotiation :=
  { n with
    balance := purse.balance
    walletPending := purse.isAwaited
    walletError := purse.error }

theorem withPurse_requireOpen (n : Negotiation) (purse : Purse) :
    (n.withPurse purse).requireOpen = n.requireOpen := rfl

theorem withPurse_requireIdle (n : Negotiation) (purse : Purse) (what : String) :
    (n.withPurse purse).requireIdle what = n.requireIdle what := rfl

/-- An answer about the wallet is taken in the epoch of its request, and changes the purse alone. -/
theorem walletLoaded_eq (n : Negotiation) (epoch : Nat) (result : Outcome Wallet) :
    n.walletLoaded epoch result =
      if n.isOpen = true ∧ epoch = n.epoch then (n.withPurse (n.purse.take result), .accepted)
      else (n, .stale) := by
  unfold walletLoaded
  by_cases htaken : n.isOpen = true ∧ epoch = n.epoch
  · rw [if_pos htaken, if_neg (by simp [htaken])]
    cases result <;> rfl
  · rw [if_neg htaken, if_pos]
    cases hopen : n.isOpen with
    | false => rfl
    | true => simpa [hopen] using htaken

/-! ## Steps that spare the purse -/

/-- What a step gives, with another purse in the negotiation that it leaves. -/
def putPurse {α : Type} (purse : Purse) (step : Negotiation × α) : Negotiation × α :=
  (step.1.withPurse purse, step.2)

section Frames

variable (n : Negotiation) (purse : Purse)

theorem submit_withPurse (text : String) :
    (n.withPurse purse).submit text = putPurse purse (n.submit text) := by
  unfold submit
  rw [withPurse_requireIdle]
  cases n.requireIdle "a search" with
  | error error => rfl
  | ok =>
    simp only [apply_ite (putPurse purse)]
    rfl

theorem refreshPeers_withPurse :
    (n.withPurse purse).refreshPeers = putPurse purse n.refreshPeers := by
  unfold refreshPeers
  rw [withPurse_requireIdle]
  cases n.requireIdle "a search" with
  | error error => rfl
  | ok =>
    simp only [apply_ite (putPurse purse)]
    rfl

theorem selectPeer_withPurse (peer : String) :
    (n.withPurse purse).selectPeer peer = putPurse purse (n.selectPeer peer) := by
  unfold selectPeer
  rw [withPurse_requireOpen]
  cases n.requireOpen with
  | error error => rfl
  | ok =>
    simp only [apply_ite (putPurse purse)]
    rfl

theorem decline_withPurse : (n.withPurse purse).decline = putPurse purse n.decline := by
  unfold decline
  rw [apply_ite (putPurse purse)]
  rfl

theorem peersLoaded_withPurse (ticket : Ticket) (result : Outcome (List String)) :
    (n.withPurse purse).peersLoaded ticket result =
      putPurse purse (n.peersLoaded ticket result) := by
  unfold peersLoaded
  cases result with
  | ok ids =>
    simp only [apply_ite (putPurse purse)]
    rfl
  | error error =>
    rw [apply_ite (putPurse purse)]
    rfl

theorem metadataLoaded_withPurse (ticket : Ticket) (result : Outcome FileRecord) :
    (n.withPurse purse).metadataLoaded ticket result =
      putPurse purse (n.metadataLoaded ticket result) := by
  unfold metadataLoaded
  rw [apply_ite (putPurse purse)]
  cases result <;> rfl

theorem transferFinished_withPurse (ticket : Ticket) (result : Outcome SavedFile) :
    (n.withPurse purse).transferFinished ticket result =
      putPurse purse (n.transferFinished ticket result) := by
  unfold transferFinished
  rw [apply_ite (putPurse purse)]
  cases result <;> rfl

theorem receive_withPurse (ticket : Ticket) (answer : Answer) :
    (n.withPurse purse).receive ticket answer = putPurse purse (n.receive ticket answer) := by
  cases answer with
  | providers result => exact n.peersLoaded_withPurse purse ticket result
  | metadata result => exact n.metadataLoaded_withPurse purse ticket result
  | transfer result => exact n.transferFinished_withPurse purse ticket result

theorem respond_putPurse {purse : Purse} {step step' : Stepped} (h : step' = putPurse purse step) :
    respond step' = putPurse purse (respond step) := by
  subst h
  obtain ⟨n, request | error⟩ := step <;> rfl

end Frames

/-- Whether an event neither looks at the purse nor changes it. -/
def Event.sparesPurse : Event → Bool
  | .move (.submit _) | .move .refreshPeers | .move (.selectPeer _) | .move .decline => true
  | .answer _ _ => true
  | .start _ | .close | .move .confirm | .move .refreshWallet | .wallet _ _ => false

/-- An event that spares the purse does the same whatever is in it. -/
theorem perform_withPurse (n : Negotiation) (purse : Purse) {event : Event}
    (h : event.sparesPurse = true) :
    (n.withPurse purse).perform event = putPurse purse (n.perform event) := by
  cases event with
  | answer ticket answer =>
    simp only [perform, receive_withPurse]
    rfl
  | move move =>
    cases move with
    | submit text => exact respond_putPurse (n.submit_withPurse purse text)
    | refreshPeers => exact respond_putPurse (n.refreshPeers_withPurse purse)
    | selectPeer peer => exact respond_putPurse (n.selectPeer_withPurse purse peer)
    | decline =>
      simp only [perform, make, decline_withPurse]
      obtain ⟨n', outcome | error⟩ := n.decline <;> rfl
    | confirm | refreshWallet => cases h
  | start | close | wallet => cases h

/-- Such an event leaves the purse, and all that says which wallets are taken. -/
theorem Transition.spares {n n' : Negotiation} {event : Event} {response : Response}
    (hn : Transition n event response n') (h : event.sparesPurse = true) :
    n'.purse = n.purse ∧ n'.isOpen = n.isOpen ∧ n'.epoch = n.epoch := by
  cases hn with
  | start | startBlank | startUnfit | startSearch | close | confirmRefused | confirm
  | refreshWallet | walletStale | walletKnown | walletFailed => cases h
  | _ => exact ⟨rfl, rfl, rfl⟩

/-! ## Two orders -/

/-- The order of two events makes no difference: not to the negotiation that they leave, and not to
the response that either of them gets. -/
structure Commutes (n : Negotiation) (one other : Event) : Prop where
  left : after n [other, one] = after n [one, other]
  responseOne : response n [other] one = response n [] one
  responseOther : response n [one] other = response n [] other

/-- An event that spares the purse commutes with an answer about the wallet, whether this is taken
or not. -/
theorem commutes_wallet (n : Negotiation) {event : Event} (h : event.sparesPurse = true)
    (epoch : Nat) (result : Outcome Wallet) : Commutes n event (.wallet epoch result) := by
  obtain ⟨hpurse, hopen, hepoch⟩ := (transition_perform n event).spares h
  have hearly := n.walletLoaded_eq epoch result
  have hlate := (n.perform event).1.walletLoaded_eq epoch result
  rw [hpurse, hopen, hepoch] at hlate
  have hframe := perform_withPurse n (n.purse.take result) h
  suffices ((n.perform event).1.walletLoaded epoch result).1 =
        ((n.walletLoaded epoch result).1.perform event).1 ∧
      ((n.walletLoaded epoch result).1.perform event).2 = (n.perform event).2 ∧
      ((n.perform event).1.walletLoaded epoch result).2 = (n.walletLoaded epoch result).2 from
    ⟨this.1, this.2.1, congrArg Response.received this.2.2⟩
  rw [hearly, hlate]
  -- The answer is taken in either order, and puts the same into the purse, or in neither.
  by_cases htaken : n.isOpen = true ∧ epoch = n.epoch
  · rw [if_pos htaken, if_pos htaken]
    dsimp only
    rw [hframe]
    exact ⟨rfl, rfl, rfl⟩
  · rw [if_neg htaken, if_neg htaken]
    exact ⟨rfl, rfl, rfl⟩

end FileMarket.Negotiation
