import FileMarket.Proofs.CommandLine.Bargaining

/-!
# How the command line buys

The receipt of an offer is shown before the user is asked to agree (`settle_ends`). If the user
agrees, one payment is made, and the task ends well exactly if the payload is saved
(`close_ends_of_agreed`). So a task that has led to an offer is `Settled`, by a payment or by being
declined, and any other one fails unpaid (`download_ends`).
-/

set_option autoImplicit false

namespace FileMarket.CommandLine

open Text Negotiation

variable {σ : Type}

namespace Client

variable (client : Client σ) (console : Console σ)

section Offers

variable {desk : Desk} {hash peer : String} {record : FileRecord} {purse : Purse}

/-! ## The purchase -/

/-- What a task says of a purchase at its end. -/
def conclusion (desk : Desk) : Program σ Unit :=
  match desk.negotiation.saved with
  | some saved => printLine ("Saved to " ++ saved.path)
  | none => failAs desk

theorem conclusion_ends_of_saved {desk : Desk} {saved : SavedFile}
    (h : desk.negotiation.saved = some saved) : ends (conclusion desk) console =
      (true, console.printing ("Saved to " ++ saved.path ++ "\n")) := by
  unfold conclusion
  rw [h]
  rfl

theorem conclusion_ends_of_unsaved {desk : Desk} (h : desk.negotiation.saved = none) :
    ends (conclusion desk) console = (false, console) := by
  unfold conclusion
  rw [h]
  rfl

/-- What a task does with an offer once the user has agreed or not. -/
def close (desk : Desk) (agreed : Bool) : Program σ Unit := do
  if agreed then
    let desk ← client.perform desk .confirmPurchase
    conclusion desk
  else
    let _ ← client.perform desk .declinePurchase
    printLine "Declined"

/-- Whether the user agrees, which is asked unless the answer is given. -/
def agree (yes : Bool) : Program σ Bool :=
  if yes then pure true else confirm "Buy this file?"

/-- What is asked stands behind what is printed, and nothing but a line is taken. -/
theorem agree_run (yes : Bool) : ∃ rest console',
    (agree yes : Program σ Bool).run console = .ok (yes || saysYes console.typed) console' ∧
      console'.world = console.world ∧ console'.printed = console.printed ++ rest := by
  cases yes with
  | true =>
    rw [Bool.true_or]
    exact ⟨"", console, rfl, rfl, String.append_empty.symm⟩
  | false =>
    rw [Bool.false_or]
    exact ⟨_, _, confirm_run console "Buy this file?", rfl, rfl⟩

/-- What a task does with an offer: it shows the receipt, and goes on as the user agrees or not. -/
def settle (desk : Desk) (yes : Bool) : Program σ Unit := do
  let receipt ← orRefuse desk.negotiation.receipt
  printLine receipt.print
  let agreed ← if yes then pure true else confirm "Buy this file?"
  client.close desk agreed

theorem settle_eq (desk : Desk) (yes : Bool) :
    client.settle desk yes = (do
      let receipt ← orRefuse desk.negotiation.receipt
      printLine receipt.print
      let agreed ← agree yes
      client.close desk agreed) := by
  cases yes <;> rfl

theorem download_eq (text : String) (given : Option String) (yes : Bool) :
    client.download text given yes = (do
      let desk ← client.findProviders text
      let peer ← choosePeer desk given
      let desk ← client.requestOffer desk peer
      client.settle desk yes) := rfl

/-- An offer that is declined ends the task well, and the node is told nothing. -/
theorem close_ends_of_declined (desk : Desk) :
    ends (client.close desk false) console = (true, console.printing ("Declined" ++ "\n")) := by
  have hidle : (desk.handle client.today .declinePurchase).2 = [] := by
    unfold Desk.handle
    rcases desk.negotiation.decline with ⟨negotiation, error | _⟩ <;> rfl
  unfold close
  rw [if_neg Bool.false_ne_true,
    ends_bind (client.perform_run_of_idle console (Prod.ext rfl hidle))]
  rfl

section Passed

variable {gate : BalanceGate} (h : desk.negotiation.AtOffer hash peer record purse)
  (passed : BalanceGate.check purse.balance record.price = .ok gate)
include h passed

/-- An offer that is agreed to is paid for once, and the task ends well exactly if the payload is
saved. -/
theorem close_ends_of_agreed :
    ∃ success rest after, ends (client.close desk true) console =
        (success, { console with
          world := ⟨client.node.after console.world.server [.download peer hash gate.price], after⟩
          printed := console.printed ++ rest }) ∧
      (success = true ↔ Delivers
        (client.node.replies console.world.server [] (.download peer hash gate.price)) record
          console.world.directory after) := by
  unfold close
  rw [if_pos rfl]
  cases hreply : client.node.replies console.world.server []
      (.download peer hash gate.price) with
  | error error =>
    obtain ⟨desk', hdispatch, hunsaved⟩ := Desk.dispatch_confirmPurchase_of_error client.node
      client.today console.world h passed hreply
    rw [ends_bind (client.perform_run_of_dispatch console hdispatch),
      conclusion_ends_of_unsaved _ hunsaved]
    refine ⟨false, "", console.world.directory, ?_, iff_of_false Bool.false_ne_true ?_⟩
    · rw [String.append_empty]
      rfl
    · rintro ⟨payload, path, hpayload, -⟩
      cases hpayload
  | ok payload =>
    obtain ⟨desk', hdispatch, hsaved⟩ := Desk.dispatch_confirmPurchase_of_ok client.node
      client.today console.world h passed hreply
    rw [ends_bind (client.perform_run_of_dispatch console hdispatch)]
    generalize hsave : console.world.directory.save
      (payloadName payload.fileName record.name record.extension) payload.data = result at hsaved
    obtain ⟨after, error | path⟩ := result
    · have hunsaved : desk'.negotiation.saved = none := Option.map_eq_none_iff.1 hsaved
      rw [conclusion_ends_of_unsaved _ hunsaved]
      refine ⟨false, "", after, ?_, iff_of_false Bool.false_ne_true ?_⟩
      · rw [String.append_empty]
      · rintro ⟨payload', path, hpayload, hpath⟩
        obtain rfl := Except.ok.inj hpayload
        cases hsave.symm.trans hpath
    · obtain ⟨saved, hsome, -⟩ := Option.map_eq_some_iff.1 hsaved
      rw [conclusion_ends_of_saved _ hsome]
      exact ⟨true, _, after, rfl, iff_of_true rfl ⟨payload, path, rfl, hsave⟩⟩

/-- The receipt of an offer is shown before the user is asked to agree. -/
theorem settle_ends (yes : Bool) :
    ∃ shown : Console σ, shown.world = console.world ∧
      (∃ rest, shown.printed = console.printed ++
        ((Receipt.purchase gate (record.hashed hash)).print ++ "\n") ++ rest) ∧
      ends (client.settle desk yes) console =
        ends (client.close desk (yes || saysYes console.typed)) shown := by
  have hshow : (orRefuse desk.negotiation.receipt : Program σ Receipt).run console =
      .ok (.purchase gate (record.hashed hash)) console := by
    rw [h.receipt_eq, passed]
    rfl
  rw [settle_eq, ends_bind hshow]
  let text := (Receipt.purchase gate (record.hashed hash)).print
  obtain ⟨rest, shown, hagree, hworld, hprinted⟩ := agree_run (console.printing (text ++ "\n")) yes
  rw [ends_bind (printLine_run console text), ends_bind hagree]
  exact ⟨shown, hworld, ⟨rest, hprinted⟩, rfl⟩

end Passed

/-- An offer that the balance gate refuses fails the task. -/
theorem settle_failsUnpaid (h : desk.negotiation.AtOffer hash peer record purse)
    {error : MarketError} (refused : BalanceGate.check purse.balance record.price = .error error)
    (yes : Bool) : FailsUnpaid client.node (client.settle desk yes) console := by
  have hfault : (orRefuse desk.negotiation.receipt : Program σ Receipt).run console =
      .error (.refused error) console := by
    rw [h.receipt_eq, refused]
    rfl
  exact .bind (failsUnpaid_of_error console client.node hfault) _

end Offers

/-! ## The whole task -/

/-- How a task ends that has led to an offer: the receipt was shown, and the offer was either
declined, and nothing more was told to the node, or paid for once; then the task ends well exactly
if the payload is saved. -/
structure Settled (node : Node σ) (hash : String) (yes : Bool) (offer : Offer)
    (before : World σ) (success : Prop) (last : Console σ) : Prop where
  shown : ∃ earlier later,
    last.printed = earlier ++ ((offer.receipt hash).print ++ "\n") ++ later
  declined : ¬ offer.Agreed yes → success ∧ last.world = before.told node offer.calls
  paid : offer.Agreed yes →
    last.world.server = node.after before.server (offer.calls ++ [offer.payment hash])
  delivered : offer.Agreed yes → (success ↔
    Delivers (node.replies before.server offer.calls (.download offer.peer hash offer.price))
      offer.record before.directory last.world.directory)

theorem settled_of_atOffer {desk : Desk} {hash peer : String} {record : FileRecord} {purse : Purse}
    {gate : BalanceGate} (h : desk.negotiation.AtOffer hash peer record purse)
    (passed : BalanceGate.check purse.balance record.price = .ok gate) (yes : Bool)
    {before : World σ} {calls : List Call} (hworld : console.world = before.told client.node calls) :
    Settled client.node hash yes ⟨peer, record, gate.price, gate.balance, calls, console.typed⟩ before
      ((ends (client.settle desk yes) console).1 = true)
      (ends (client.settle desk yes) console).2 := by
  obtain ⟨balance, price, newBalance⟩ := gate
  obtain ⟨-, -, -, -, -, hnew⟩ := (BalanceGate.check_eq_ok_iff _ _ _).1 passed
  obtain rfl : newBalance = balance.sub price := hnew
  obtain ⟨shown, hsame, ⟨rest, hprinted⟩, hends⟩ := client.settle_ends console h passed yes
  rw [hends]
  rw [hworld] at hsame
  cases hagreed : yes || saysYes console.typed with
  | true =>
    obtain ⟨success, rest', after, hclose, hdelivers⟩ := client.close_ends_of_agreed shown h passed
    rw [hsame] at hclose hdelivers
    have hreply : client.node.replies (before.told client.node calls).server []
        (.download peer hash price) =
          client.node.replies before.server calls (.download peer hash price) := by
      rw [show (before.told client.node calls).server = client.node.after before.server calls from rfl,
        client.node.replies_after, Replies.since, List.append_nil]
    have hagreed' : yes = true ∨ saysYes console.typed = true := Bool.or_eq_true_iff.1 hagreed
    rw [hclose]
    refine ⟨⟨console.printed, rest ++ rest', ?_⟩, fun hdeclined => absurd hagreed' hdeclined,
      fun _ => ?_, fun _ => ?_⟩
    · show shown.printed ++ rest' = _
      rw [hprinted, String.append_assoc]
      rfl
    · exact (client.node.after_append before.server calls _).symm
    · rw [hdelivers, hreply]
      rfl
  | false =>
    have hdeclined : ¬ (yes = true ∨ saysYes console.typed = true) := by
      rw [← Bool.or_eq_true_iff, hagreed]
      exact Bool.false_ne_true
    rw [client.close_ends_of_declined]
    refine ⟨⟨console.printed, rest ++ ("Declined" ++ "\n"), ?_⟩, fun _ => ⟨rfl, hsame⟩,
      fun h => absurd h hdeclined, fun h => absurd h hdeclined⟩
    show shown.printed ++ ("Declined" ++ "\n") = _
    rw [hprinted, String.append_assoc]
    rfl

/-- The balance is known when the receipt is asked for exactly if the wallet was got. -/
theorem funded_iff (replies : Replies) (hash peer : String) (calls : List Call)
    (balance : Binary64) :
    let purse := (⟨none, true, none⟩ : Purse).take (replies [.list .purchased] .wallet)
    Funded replies hash peer calls balance ↔
      calls = lookups hash ++ offerCalls purse hash peer ∧
        (purseAfter purse (replies (lookups hash ++ [.requestMetadata peer hash]) .wallet)).balance =
          some balance := by
  intro purse
  cases hfirst : replies [.list .purchased] .wallet with
  | ok wallet =>
    have hpurse : purse = ⟨some wallet.current, false, none⟩ := by
      simp only [purse, hfirst, Purse.take]
    rw [hpurse]
    constructor
    · intro h
      cases h with
      | first wallet' known =>
        cases hfirst.symm.trans known
        exact ⟨rfl, rfl⟩
      | second error wallet' unknown => cases hfirst.symm.trans unknown
    · rintro ⟨rfl, hbalance⟩
      obtain rfl := Option.some.inj hbalance
      exact .first wallet hfirst
  | error error =>
    have hpurse : purse = ⟨none, false, some error⟩ := by
      simp only [purse, hfirst, Purse.take]
    rw [hpurse]
    constructor
    · intro h
      cases h with
      | first wallet known => cases hfirst.symm.trans known
      | second error' wallet unknown known =>
        rw [known]
        exact ⟨rfl, rfl⟩
    · rintro ⟨rfl, hbalance⟩
      cases hagain : replies (lookups hash ++ [.requestMetadata peer hash]) .wallet with
      | ok wallet =>
        rw [hagain] at hbalance
        obtain rfl := Option.some.inj hbalance
        exact .second error wallet hfirst hagain
      | error error' =>
        rw [hagain] at hbalance
        cases hbalance

section Peers

variable {hash : String} {ids : List String} {past : World σ}

/-- Once the peers are known, a purchase that leads to an offer is settled, and any other one
fails. -/
theorem deal_ends (given : Option String) (yes : Bool) (typed : List Char)
    {desk : Desk} {peer : String}
    (hfinite : ∀ earlier wallet, client.node.replies past.server earlier .wallet = .ok wallet →
      wallet.current.isFinite = true)
    (listed : ∃ records, client.node.replies past.server [] (.list .purchased) = .ok records)
    (found : Found ((client.node.replies past.server).since [.list .purchased]) hash ids)
    (hworld : console.world = past.told client.node (lookups hash))
    (hpeers : desk.negotiation.AtPeers hash (namedPeers ids)
      ((⟨none, true, none⟩ : Purse).take
        (client.node.replies past.server [.list .purchased] .wallet)))
    (hpicks : Picks (namedPeers ids) typed given peer console.typed) :
    let program : Program σ Unit := do
      let desk ← client.requestOffer desk peer
      client.settle desk yes
    (∃ offer, Offered (client.node.replies past.server) hash given typed offer ∧
      Settled client.node hash yes offer past ((ends program console).1 = true)
        (ends program console).2) ∨
    (∀ offer, ¬ Offered (client.node.replies past.server) hash given typed offer) ∧
      FailsUnpaid client.node program console := by
  intro program
  let replies := client.node.replies past.server
  let purse := (⟨none, true, none⟩ : Purse).take (replies [.list .purchased] .wallet)
  have hreplies : client.node.replies console.world.server = replies.since (lookups hash) := by
    rw [hworld]
    exact client.node.replies_after past.server (lookups hash)
  have hrequest := client.requestOffer_run console hpeers (Purse.isAwaited_take _ _) peer
  simp only [hreplies, Replies.since_nil] at hrequest
  rcases hrequest with ⟨record, desk', asked, known, hrecord, hrun, htold, htyped, hoffer⟩ |
    ⟨hnone, hfails⟩
  swap
  · refine Or.inr ⟨fun offer h => ?_, .bind hfails _⟩
    obtain ⟨rfl, -, hmem⟩ := h.peer_of_picks found.answer hpicks
    exact hnone hmem _ h.metadata
  have hcalls := unpaid_offerCalls purse hash peer
  cases hgate : BalanceGate.check
      (purseAfter purse (replies (lookups hash ++ [.requestMetadata peer hash]) .wallet)).balance
      record.price with
  | error error =>
    refine Or.inr ⟨fun offer h => ?_, .after hrun htold hcalls
      (client.settle_failsUnpaid asked hoffer hgate yes)⟩
    obtain ⟨rfl, -, -⟩ := h.peer_of_picks found.answer hpicks
    obtain rfl := Except.ok.inj (hrecord.symm.trans h.metadata)
    obtain ⟨-, hbalance⟩ := (funded_iff replies hash offer.peer _ _).1 h.funded
    have hpassed := (BalanceGate.check_eq_ok_iff _ _
      ⟨offer.balance, offer.price, offer.balance.sub offer.price⟩).2
        ⟨hbalance, h.funded.isFinite hfinite, h.price, h.finite, h.notNegative, rfl⟩
    cases hgate.symm.trans hpassed
  | ok gate =>
    obtain ⟨hbalance, -, hprice, hpriceFinite, hnotNegative, -⟩ :=
      (BalanceGate.check_eq_ok_iff _ _ gate).1 hgate
    have htold' : asked.world =
        past.told client.node (lookups hash ++ offerCalls purse hash peer) := by
      rw [htold, hworld, World.told_told]
    have hsettled := client.settled_of_atOffer asked hoffer hgate yes htold'
    have hends : ends program console = ends (client.settle desk' yes) asked := ends_bind hrun
    rw [← hends] at hsettled
    exact Or.inl ⟨_, ⟨listed, found.isHash, ⟨ids, found.answer, htyped ▸ hpicks, known⟩, hrecord,
      hprice, hpriceFinite, hnotNegative, (funded_iff replies hash peer _ _).2 ⟨rfl, hbalance⟩⟩,
      hsettled⟩

end Peers

/-- A purchase that leads to an offer is settled, and any other one fails and is not paid for. -/
theorem download_ends (text : String) (given : Option String) (yes : Bool)
    (hfinite : ∀ earlier wallet, client.node.replies console.world.server earlier .wallet =
      .ok wallet → wallet.current.isFinite = true) :
    let offered := Offered (client.node.replies console.world.server) (trim text) given console.typed
    let ending := ends (client.download text given yes) console
    (∃ offer, offered offer ∧
      Settled client.node (trim text) yes offer console.world (ending.1 = true) ending.2) ∨
    (∀ offer, ¬ offered offer) ∧
      FailsUnpaid client.node (client.download text given yes) console := by
  intro offered ending
  have hlookups : ∀ call ∈ lookups (trim text), call.isPayment = false := by
    simp [lookups, Call.isPayment]
  simp only [ending, download_eq]
  rcases client.findProviders_run console text with
    ⟨ids, desk, known, listed, found, hfind, hworld, htyped, hpeers⟩ | ⟨hnone, hfails⟩
  swap
  · refine Or.inr ⟨fun offer h => ?_, .bind hfails _⟩
    obtain ⟨ids, hids, -, hmem⟩ := h.picked
    exact hnone ids h.listed ⟨h.isHash, hids, List.ne_nil_of_mem hmem⟩
  rcases client.choosePeer_run known desk given with
    ⟨peer, chosen, hchoose, hchosen, hpicks⟩ | ⟨hnone, hfails⟩
  swap
  · refine Or.inr ⟨fun offer h => ?_, .after hfind hworld hlookups (.bind hfails _)⟩
    obtain ⟨ids', hids', hpicks, -⟩ := h.picked
    obtain rfl := Except.ok.inj (found.answer.symm.trans hids')
    rw [hpeers.peers, htyped] at hnone
    exact hnone _ _ hpicks
  rw [hpeers.peers, htyped] at hpicks
  have hdeal := client.deal_ends chosen given yes console.typed hfinite listed found
    (hchosen.trans hworld) hpeers hpicks
  rcases hdeal with ⟨offer, hoffered, hsettled⟩ | ⟨hnone, hfails⟩
  · refine Or.inl ⟨offer, hoffered, ?_⟩
    rw [ends_bind hfind, ends_bind hchoose]
    exact hsettled
  · exact Or.inr ⟨hnone, .after hfind hworld hlookups
      (.after hchoose (show chosen.world = known.world.told client.node [] from hchosen)
        (List.forall_mem_nil _) hfails)⟩

end Client

end FileMarket.CommandLine
