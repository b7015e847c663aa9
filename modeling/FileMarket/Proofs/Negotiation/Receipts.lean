import FileMarket.Proofs.Negotiation.Coherence
import FileMarket.Proofs.Price

/-!
# Receipts of purchases

The receipt that is shown for an offer and the purchase that is requested when it is confirmed are
found on two ways: one looks at the metadata alone and is open to four phases, the other needs a
chosen peer too and is open to two. Where both are open they come to the same balance gate
(`confirm_of_offered`, `receipt_of_offered`), so in every run the purchase is the one shown, or both
are refused for one reason (`receipt_shows_purchase`).
-/

set_option autoImplicit false

namespace FileMarket.Negotiation

/-- Whether there is an offer to be confirmed: a new one, or one whose transfer failed. -/
def IsOffered (n : Negotiation) : Prop := n.phase = .confirming ∨ n.phase = .failed

/-- The ticket of the purchase that is requested next. -/
def nextTicket (n : Negotiation) : Ticket := ⟨n.epoch, n.seq + 1, n.hash, n.chosen⟩

/-- The negotiation that has just requested a purchase. -/
def committed (n : Negotiation) : Negotiation :=
  { n with
    seq := n.seq + 1
    phase := .transferring
    pending := some n.nextTicket
    error := none }

/-- A receipt shows a purchase: the one file that is bought, the price that is paid, and the balance
of the wallet that it is set against. -/
structure Shows (n : Negotiation) (receipt : Receipt) (price : Binary64) (record : FileRecord) :
    Prop where
  files : receipt.files = [record]
  funds : ∃ balance, n.balance = some balance ∧
    receipt.funds = some ⟨balance, price, balance.sub price⟩

section Offered

variable {n : Negotiation} {record : FileRecord} {peer : String}

theorem isBusy_of_isOffered (h : n.IsOffered) : n.phase.isBusy = false := by
  rcases h with h | h <;> rw [h] <;> rfl

/-- An offer is a record from a chosen peer, in a negotiation that is open. -/
theorem Coherent.exists_offer (h : Coherent n) (offered : n.IsOffered) :
    ∃ record peer, n.isOpen = true ∧ n.metadata = some record ∧ n.chosen = some peer := by
  have hisOpen : n.isOpen = true := h.isOpen (by rcases offered with h | h <;> rw [h] <;> decide)
  obtain ⟨record, hrecord⟩ := Option.isSome_iff_exists.1
    (h.metadata_isSome.2 (by rcases offered with h | h <;> simp [h]))
  obtain ⟨peer, hpeer⟩ := Option.isSome_iff_exists.1
    (h.chosen_isSome.2 (by rcases offered with h | h <;> simp [h]))
  exact ⟨record, peer, hisOpen, hrecord, hpeer⟩

/-- Confirming an offer is a matter of the balance gate alone. -/
theorem confirm_of_offered (isOpen : n.isOpen = true) (offered : n.IsOffered)
    (hrecord : n.metadata = some record) (hpeer : n.chosen = some peer) :
    n.confirm = match BalanceGate.check n.balance record.price with
      | .error error => n.fail error
      | .ok gate => (n.committed, .ok (.download n.nextTicket gate.price record)) := by
  have hidle : n.requireIdle "a transfer" = .ok () :=
    (requireIdle_eq_ok_iff n _).2 ⟨isOpen, isBusy_of_isOffered offered⟩
  have hphase : ¬ (n.phase ≠ .confirming ∧ n.phase ≠ .failed) := by
    rw [not_and_or, not_ne_iff, not_ne_iff]
    exact offered
  unfold confirm
  rw [hidle]
  simp only [hphase, if_false, hrecord, hpeer]
  cases BalanceGate.check n.balance record.price with
  | error error => rfl
  | ok gate => simp only [committed, nextTicket, hrecord, hpeer, ask, issue]

/-- An offer is refused by the balance gate or not at all. -/
theorem confirm_eq_error_iff (isOpen : n.isOpen = true) (offered : n.IsOffered)
    (hrecord : n.metadata = some record) (hpeer : n.chosen = some peer) {error : MarketError} :
    n.confirm.2 = .error error ↔ BalanceGate.check n.balance record.price = .error error := by
  rw [confirm_of_offered isOpen offered hrecord hpeer]
  cases BalanceGate.check n.balance record.price with
  | error refusal =>
    constructor <;>
    · rintro ⟨⟩
      rfl
  | ok gate => exact ⟨nofun, nofun⟩

/-- Showing the receipt of an offer is a matter of the gate alone, too. -/
theorem receipt_of_offered (offered : n.IsOffered) (hrecord : n.metadata = some record) :
    n.receipt = (BalanceGate.check n.balance record.price).map fun gate =>
      .purchase gate record := by
  have hoffer : n.offer? = some record := by
    unfold offer?
    rcases offered with h | h <;> rw [h] <;> exact hrecord
  unfold receipt
  rw [hoffer]

/-- Without an offer there is nothing to confirm. -/
theorem confirm_of_not_offered (unoffered : ¬ n.IsOffered) :
    ∃ error, n.confirm = (n, .error error) := by
  have hphase : n.phase ≠ .confirming ∧ n.phase ≠ .failed := not_or.1 unoffered
  unfold confirm
  cases n.requireIdle "a transfer" with
  | error error => exact ⟨error, rfl⟩
  | ok => exact ⟨_, if_pos hphase⟩

/-- The receipt of a gate that a purchase has passed. -/
theorem shows_purchase {gate : BalanceGate}
    (passed : BalanceGate.check n.balance record.price = .ok gate) :
    n.Shows (.purchase gate record) gate.price record := by
  obtain ⟨hbalance, -, -, -, -, hnew⟩ := (BalanceGate.check_eq_ok_iff _ _ gate).1 passed
  refine ⟨rfl, gate.balance, hbalance, ?_⟩
  rw [← hnew]
  rfl

end Offered

/-- In every run, while there is an offer, the purchase can be confirmed exactly if its receipt can
be shown; then the purchase requested is the one that the receipt shows, of the hash of the
negotiation and from the chosen peer, and the negotiation waits for the transfer. When the one is
refused so is the other, for the same reason, and nothing but the error changes. Without an offer
nothing can be confirmed, and nothing changes. -/
theorem receipt_shows_purchase (past : List Event) :
    ((after new past).IsOffered →
      ((∃ request, (after new past).confirm.2 = .ok request) ↔
        ∃ receipt, (after new past).receipt = .ok receipt) ∧
      (∀ request receipt, (after new past).confirm.2 = .ok request →
        (after new past).receipt = .ok receipt →
        ∃ ticket price record, request = .download ticket price record ∧
          (after new past).Shows receipt price record ∧ ticket.hash = (after new past).hash ∧
          (∃ peer, ticket.peer = some peer ∧ (after new past).chosen = some peer) ∧
          (after new past).confirm.1 = (after new past).committed ∧
          (after new past).confirm.1.phase = .transferring) ∧
      (∀ error, (after new past).confirm.2 = .error error →
        (after new past).receipt = .error error ∧
        (after new past).confirm.1 = { after new past with error := some error })) ∧
    (¬ (after new past).IsOffered →
      ∃ error, (after new past).confirm = (after new past, .error error)) := by
  refine ⟨fun offered => ?_, confirm_of_not_offered⟩
  obtain ⟨record, peer, isOpen, hrecord, hpeer⟩ := (Coherent.new.after past).exists_offer offered
  rw [confirm_of_offered isOpen offered hrecord hpeer, receipt_of_offered offered hrecord]
  cases hgate : BalanceGate.check (after new past).balance record.price with
  | error error =>
    -- The gate refuses: neither the purchase nor its receipt is to be had.
    refine ⟨⟨?_, ?_⟩, ?_, ?_⟩
    · rintro ⟨request, hrequest⟩
      cases hrequest
    · rintro ⟨receipt, hreceipt⟩
      cases hreceipt
    · intro request receipt hrequest
      cases hrequest
    · intro error' herror
      cases herror
      exact ⟨rfl, rfl⟩
  | ok gate =>
    refine ⟨⟨fun _ => ⟨_, rfl⟩, fun _ => ⟨_, rfl⟩⟩, ?_, ?_⟩
    · intro request receipt hrequest hreceipt
      cases hrequest
      cases hreceipt
      exact ⟨_, gate.price, record, rfl, shows_purchase hgate, rfl, ⟨peer, hpeer, hpeer⟩, rfl, rfl⟩
    · intro error herror
      cases herror

end FileMarket.Negotiation
