import FileMarket.CommandLine.Run
import FileMarket.Proofs.CommandLine.Batches
import FileMarket.Proofs.Decimal.Counts
import FileMarket.Proofs.Desk.Offers
import FileMarket.Proofs.Http.Requests

/-!
# Offers to the user of the command line

What the replies of a node and the choices of a user have to be for a file to be offered
(`Offered`), and what the user is then asked to agree to (`Offer`). There is no more than one offer
(`Offered.unique`). Where there is none, a task fails without a payment (`FailsUnpaid`).
-/

set_option autoImplicit false

namespace FileMarket.CommandLine

open Text Negotiation

/-! ## What is typed -/

/-- The first line typed, without outer blanks. -/
def firstLine (typed : List Char) : String := trim (String.ofList (typed.takeWhile (· != '\n')))

/-- What is typed behind the first line. -/
def laterLines (typed : List Char) : List Char := (typed.dropWhile (· != '\n')).drop 1

/-- How a peer is picked, and what is still typed then: the peer is given, it is the only one, or its
number is typed. -/
inductive Picks (peers : List String) (typed : List Char) :
    Option String → String → List Char → Prop
  | given (peer : String) : Picks peers typed (some peer) peer typed
  | only (peer : String) (alone : peers = [peer]) : Picks peers typed none peer typed
  | numbered (number : UInt64) (peer : String) (many : peers.length ≠ 1)
      (spelled : Spells (firstLine typed) number.toNat) (positive : number ≠ 0)
      (found : peers[number.toNat - 1]? = some peer) :
      Picks peers typed none peer (laterLines typed)

/-- No more than one peer is picked. -/
theorem Picks.unique {peers : List String} {typed rest rest' : List Char} {given : Option String}
    {peer peer' : String} (h : Picks peers typed given peer rest)
    (h' : Picks peers typed given peer' rest') : peer = peer' ∧ rest = rest' := by
  cases h with
  | given =>
    cases h'
    exact ⟨rfl, rfl⟩
  | only _ alone =>
    cases h' with
    | only _ alone' =>
      obtain rfl : peer = peer' := by simpa using alone.symm.trans alone'
      exact ⟨rfl, rfl⟩
    | numbered _ _ many => exact absurd (congrArg List.length alone) many
  | numbered number _ many spelled positive found =>
    cases h' with
    | only _ alone => exact absurd (congrArg List.length alone) many
    | numbered number' _ _ spelled' _ found' =>
      obtain rfl : number = number' := Except.ok.inj
        ((readCount_eq_ok_iff.2 spelled).symm.trans (readCount_eq_ok_iff.2 spelled'))
      exact ⟨Option.some.inj (found.symm.trans found'), rfl⟩

/-! ## Ends of programs -/

section Ends

variable {σ α β : Type}

/-- How a program ends: whether it succeeds, and the console that it leaves. -/
def ends (program : Program σ α) (console : Console σ) : Bool × Console σ :=
  match program.run console with
  | .ok _ console => (true, console)
  | .error _ console => (false, console)

theorem ends_of_ok {program : Program σ α} {console console' : Console σ} {value : α}
    (h : program.run console = .ok value console') : ends program console = (true, console') := by
  rw [ends, h]

theorem ends_of_error {program : Program σ α} {console console' : Console σ} {fault : Fault}
    (h : program.run console = .error fault console') :
    ends program console = (false, console') := by
  rw [ends, h]

theorem ends_bind {program : Program σ α} {next : α → Program σ β} {console console' : Console σ}
    {value : α} (h : program.run console = .ok value console') :
    ends (program >>= next) console = ends (next value) console' := by
  rw [ends, ends, run_bind_of_ok h]

/-- A program that fails, and that has told the node of no payment. -/
structure FailsUnpaid (node : Node σ) (program : Program σ α) (console : Console σ) : Prop where
  fails : (ends program console).1 = false
  unpaid : ∃ calls, (∀ call ∈ calls, call.isPayment = false) ∧
    (ends program console).2.world = console.world.told node calls

namespace FailsUnpaid

variable {node : Node σ} {program : Program σ α} {next : α → Program σ β}
  {console console' : Console σ} {calls : List Call}

theorem of_error {fault : Fault} (h : program.run console = .error fault console')
    (hworld : console'.world = console.world.told node calls)
    (hcalls : ∀ call ∈ calls, call.isPayment = false) : FailsUnpaid node program console := by
  have hends := ends_of_error h
  exact ⟨by rw [hends], calls, hcalls, by rw [hends, hworld]⟩

/-- What fails ends all that was to come. -/
theorem bind (h : FailsUnpaid node program console) (next : α → Program σ β) :
    FailsUnpaid node (program >>= next) console := by
  obtain ⟨hfails, calls, hcalls, hworld⟩ := h
  cases hrun : program.run console with
  | ok value console' =>
    rw [ends_of_ok hrun] at hfails
    cases hfails
  | error fault console' =>
    rw [ends_of_error hrun] at hworld
    exact of_error (run_bind_of_error hrun) hworld hcalls

/-- What was told before counts as well. -/
theorem after {value : α} (h : program.run console = .ok value console')
    (hworld : console'.world = console.world.told node calls)
    (hcalls : ∀ call ∈ calls, call.isPayment = false)
    (hrest : FailsUnpaid node (next value) console') :
    FailsUnpaid node (program >>= next) console := by
  obtain ⟨hfails, later, hlater, hworld'⟩ := hrest
  rw [← ends_bind h] at hfails hworld'
  refine ⟨hfails, calls ++ later, ?_, ?_⟩
  · intro call hcall
    exact (List.mem_append.1 hcall).elim (hcalls call) (hlater call)
  · rw [hworld', hworld, World.told_told]

end FailsUnpaid

end Ends

/-! ## Offers -/

/-- What the user is asked to agree to, and what has led to it. -/
structure Offer where
  peer : String
  record : FileRecord
  price : Binary64
  balance : Binary64
  /-- The calls made so far, the first one first. -/
  calls : List Call
  /-- What is typed and not yet read. -/
  typed : List Char

namespace Offer

/-- The receipt that the user is shown. -/
def receipt (offer : Offer) (hash : String) : Receipt :=
  .purchase ⟨offer.balance, offer.price, offer.balance.sub offer.price⟩ (offer.record.hashed hash)

/-- The call that pays for an offer. -/
def payment (offer : Offer) (hash : String) : Call := .download offer.peer hash offer.price

/-- Whether the user agrees, when asked or beforehand. -/
def Agreed (offer : Offer) (yes : Bool) : Prop := yes = true ∨ saysYes offer.typed = true

end Offer

/-- A payload comes back for a payment, and is saved in a directory. -/
def Delivers (reply : Outcome Payload) (record : FileRecord) (before after : Directory) : Prop :=
  ∃ payload path, reply = .ok payload ∧
    before.save (payloadName payload.fileName record.name record.extension) payload.data =
      (after, .ok path)

/-- The calls that look up the providers of a hash. -/
def lookups (hash : String) : List Call := [.list .purchased, .wallet, .findProviders hash]

/-- The wallet is got at the first attempt or at the second one, which follows the offer of a peer.
-/
inductive Funded (replies : Replies) (hash peer : String) : List Call → Binary64 → Prop
  | first (wallet : Wallet) (known : replies [.list .purchased] .wallet = .ok wallet) :
      Funded replies hash peer (lookups hash ++ [.requestMetadata peer hash]) wallet.current
  | second (error : MarketError) (wallet : Wallet)
      (unknown : replies [.list .purchased] .wallet = .error error)
      (known : replies (lookups hash ++ [.requestMetadata peer hash]) .wallet = .ok wallet) :
      Funded replies hash peer (lookups hash ++ [.requestMetadata peer hash] ++ [.wallet])
        wallet.current

/-- The node's replies and what the user chooses lead to an offer: the history of purchases is
listed, the hash can be looked up, the peer that is picked is one of those named for it, and its
record comes with a price, which can be set against the wallet. -/
structure Offered (replies : Replies) (hash : String) (given : Option String) (typed : List Char)
    (offer : Offer) : Prop where
  listed : ∃ records, replies [] (.list .purchased) = .ok records
  isHash : IsHash hash
  picked : ∃ ids, replies [.list .purchased, .wallet] (.findProviders hash) = .ok ids ∧
    Picks (namedPeers ids) typed given offer.peer offer.typed ∧ offer.peer ∈ namedPeers ids
  metadata : replies (lookups hash) (.requestMetadata offer.peer hash) = .ok offer.record
  price : offer.record.price = some offer.price
  finite : offer.price.isFinite = true
  notNegative : offer.price.lt .zero = false
  funded : Funded replies hash offer.peer offer.calls offer.balance

/-- The wallet is got in one way. -/
theorem Funded.unique {replies : Replies} {hash peer : String} {calls calls' : List Call}
    {balance balance' : Binary64} (h : Funded replies hash peer calls balance)
    (h' : Funded replies hash peer calls' balance') : calls = calls' ∧ balance = balance' := by
  cases h with
  | first wallet known =>
    cases h' with
    | first wallet' known' =>
      cases known.symm.trans known'
      exact ⟨rfl, rfl⟩
    | second error wallet' unknown => cases known.symm.trans unknown
  | second error wallet unknown known =>
    cases h' with
    | first wallet' known' => cases known'.symm.trans unknown
    | second error' wallet' unknown' known' =>
      cases known.symm.trans known'
      exact ⟨rfl, rfl⟩

/-- No call that leads to an offer is a payment. -/
theorem Funded.unpaid {replies : Replies} {hash peer : String} {calls : List Call}
    {balance : Binary64} (h : Funded replies hash peer calls balance) :
    ∀ call ∈ calls, call.isPayment = false := by
  cases h <;> simp [lookups, Call.isPayment]

/-- The balance is as finite as those that the node replies with. -/
theorem Funded.isFinite {replies : Replies} {hash peer : String} {calls : List Call}
    {balance : Binary64} (h : Funded replies hash peer calls balance)
    (hfinite : ∀ earlier wallet, replies earlier .wallet = .ok wallet →
      wallet.current.isFinite = true) : balance.isFinite = true := by
  cases h with
  | first wallet known => exact hfinite _ wallet known
  | second error wallet unknown known => exact hfinite _ wallet known

/-- An offer can only be made by the peer that is picked among those named. -/
theorem Offered.peer_of_picks {replies : Replies} {hash peer : String} {given : Option String}
    {typed rest : List Char} {offer : Offer} {ids : List String}
    (h : Offered replies hash given typed offer)
    (hids : replies [.list .purchased, .wallet] (.findProviders hash) = .ok ids)
    (hpicks : Picks (namedPeers ids) typed given peer rest) :
    offer.peer = peer ∧ offer.typed = rest ∧ peer ∈ namedPeers ids := by
  obtain ⟨ids', hids', hpicks', hmem⟩ := h.picked
  obtain rfl := Except.ok.inj (hids.symm.trans hids')
  obtain ⟨rfl, rfl⟩ := hpicks.unique hpicks'
  exact ⟨rfl, rfl, hmem⟩

/-- There is no more than one offer. -/
theorem Offered.unique {replies : Replies} {hash : String} {given : Option String}
    {typed : List Char} {offer offer' : Offer} (h : Offered replies hash given typed offer)
    (h' : Offered replies hash given typed offer') : offer = offer' := by
  obtain ⟨ids, hids, hpicks, -⟩ := h'.picked
  obtain ⟨hpeer, hrest, -⟩ := h.peer_of_picks hids hpicks
  obtain ⟨peer, record, price, balance, calls, rest⟩ := offer
  obtain ⟨peer', record', price', balance', calls', rest'⟩ := offer'
  obtain rfl : peer = peer' := hpeer
  obtain rfl : rest = rest' := hrest
  obtain rfl : record = record' := Except.ok.inj (h.metadata.symm.trans h'.metadata)
  obtain rfl : price = price' := Option.some.inj (h.price.symm.trans h'.price)
  obtain ⟨rfl, rfl⟩ : calls = calls' ∧ balance = balance' := h.funded.unique h'.funded
  rfl

end FileMarket.CommandLine
