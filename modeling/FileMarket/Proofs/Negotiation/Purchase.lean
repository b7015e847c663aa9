import FileMarket.Proofs.Negotiation.Coherence
import FileMarket.Proofs.Negotiation.Tickets
import FileMarket.Proofs.Price

/-!
# What a purchase rests on

A negotiation holds nothing that the node did not say since it was opened: the listed peers come
from the latest list that was taken, the offer from the latest answer about metadata, the balance
from the latest wallet (`Founded`). So a purchase is requested of a peer, for a hash and at a price
that the node gave (`download_founded`).
-/

set_option autoImplicit false

namespace FileMarket.Negotiation

open FileMarket.Text

/-! ## The answers taken -/

/-- The list of peers that an entry takes, and the ticket it came with. -/
def Entry.peerList? : Entry → Option (Ticket × List String)
  | ⟨.answer ticket (.providers (.ok ids)), .received .accepted⟩ => some (ticket, ids)
  | _ => none

/-- The answer about metadata that an entry takes, and the ticket it came with. -/
def Entry.metadata? : Entry → Option (Ticket × Outcome FileRecord)
  | ⟨.answer ticket (.metadata result), .received .accepted⟩ => some (ticket, result)
  | _ => none

/-- The wallet that an entry takes. -/
def Entry.wallet? : Entry → Option Wallet
  | ⟨.wallet _ (.ok wallet), .received .accepted⟩ => some wallet
  | _ => none

theorem mem_issued_cons {question : Query × Ticket} {recent : List Entry} (entry : Entry)
    (h : question ∈ issued recent) : question ∈ issued (entry :: recent) := by
  rw [issued_cons]
  exact List.mem_append_right _ h

section Foundations

variable {recent : List Entry} {entry : Entry}

/-- The latest list of peers that was taken answers a lookup of the hash, and names the peers. -/
def PeersFounded (hash : String) (peers : List String) (recent : List Entry) : Prop :=
  ∀ peer ∈ peers, ∃ ticket ids, recent.findSome? Entry.peerList? = some (ticket, ids) ∧
    (.providers, ticket) ∈ issued recent ∧ ticket.hash = hash ∧ ∃ id ∈ ids, trim id = peer

theorem PeersFounded.nil (hash : String) : PeersFounded hash [] recent := by
  intro peer hmem
  cases hmem

theorem PeersFounded.keep {hash : String} {peers : List String}
    (h : PeersFounded hash peers recent) (hentry : entry.peerList? = none) :
    PeersFounded hash peers (entry :: recent) := by
  intro peer hmem
  obtain ⟨ticket, ids, hlatest, hissued, hrest⟩ := h peer hmem
  refine ⟨ticket, ids, ?_, mem_issued_cons entry hissued, hrest⟩
  rw [List.findSome?_cons, hentry]
  exact hlatest

/-- The latest answer about metadata is a record from the chosen peer for the hash, and is the
offer. -/
def OfferFounded (hash : String) (chosen : Option String) (offer : Option FileRecord)
    (recent : List Entry) : Prop :=
  ∀ record, offer = some record → ∃ ticket answer,
    recent.findSome? Entry.metadata? = some (ticket, .ok answer) ∧
      (.metadata, ticket) ∈ issued recent ∧ ticket.hash = hash ∧ ticket.peer = chosen ∧
      answer.hashed hash = record

theorem OfferFounded.none (hash : String) (chosen : Option String) :
    OfferFounded hash chosen none recent := by
  intro record hsome
  cases hsome

theorem OfferFounded.keep {hash : String} {chosen : Option String} {offer : Option FileRecord}
    (h : OfferFounded hash chosen offer recent) (hentry : entry.metadata? = .none) :
    OfferFounded hash chosen offer (entry :: recent) := by
  intro record hsome
  obtain ⟨ticket, answer, hlatest, hissued, hrest⟩ := h record hsome
  refine ⟨ticket, answer, ?_, mem_issued_cons entry hissued, hrest⟩
  rw [List.findSome?_cons, hentry]
  exact hlatest

/-- The latest wallet that was taken holds the balance. -/
def BalanceFounded (balance : Option Binary64) (recent : List Entry) : Prop :=
  ∀ amount, balance = some amount →
    ∃ wallet, recent.findSome? Entry.wallet? = some wallet ∧ wallet.current = amount

theorem BalanceFounded.none : BalanceFounded none recent := by
  intro amount hsome
  cases hsome

theorem BalanceFounded.keep {balance : Option Binary64} (h : BalanceFounded balance recent)
    (hentry : entry.wallet? = .none) : BalanceFounded balance (entry :: recent) := by
  intro amount hsome
  obtain ⟨wallet, hlatest, hamount⟩ := h amount hsome
  refine ⟨wallet, ?_, hamount⟩
  rw [List.findSome?_cons, hentry]
  exact hlatest

end Foundations

/-- What a negotiation holds is what the node said since it was opened. -/
structure Founded (n : Negotiation) (recent : List Entry) : Prop where
  peers : PeersFounded n.hash (n.providers.map (·.peer)) recent
  offer : OfferFounded n.hash n.chosen n.metadata recent
  balance : BalanceFounded n.balance recent

/-- A negotiation that was just opened or closed holds nothing. -/
theorem Founded.blank {n : Negotiation} (hproviders : n.providers = []) (hoffer : n.metadata = none)
    (hbalance : n.balance = none) (recent : List Entry) : Founded n recent where
  peers := by rw [hproviders]; exact .nil _
  offer := by rw [hoffer]; exact .none _ _
  balance := by rw [hbalance]; exact .none

/-- Every rule keeps a negotiation founded on what the node said. -/
theorem Founded.transition {n n' : Negotiation} {event : Event} {response : Response}
    {past : List Entry} (h : Founded n (current past)) (hcoherent : Coherent n)
    (hticketed : TicketedBy n past) (hn : Transition n event response n') :
    Founded n' (current (⟨event, response⟩ :: past)) := by
  have hissued : ∀ query ticket, n.awaits (Query.phase query) ticket = true →
      (query, ticket) ∈ issued (current past) := fun query ticket awaited =>
    List.mem_of_mem_head? ((hticketed.awaits_iff query ticket).1 awaited).2.1
  cases hn with
  | start => exact .blank rfl rfl rfl _
  | startBlank text blank => exact .blank rfl rfl rfl _
  | startUnfit text unfit => exact .blank rfl rfl rfl _
  | startSearch text fit => exact .blank rfl rfl rfl _
  | close => exact .blank rfl rfl rfl _
  | refused move error => exact ⟨h.peers.keep rfl, h.offer.keep rfl, h.balance.keep rfl⟩
  | submitBlank text isOpen idle unoffered blank =>
    exact ⟨h.peers.keep rfl, h.offer.keep rfl, h.balance.keep rfl⟩
  | submitUnfit text isOpen idle unoffered unfit =>
    exact ⟨.nil _, .none _ _, h.balance.keep rfl⟩
  | submitSearch text isOpen idle unoffered fit =>
    exact ⟨.nil _, .none _ _, h.balance.keep rfl⟩
  | refreshPeers isOpen listed => exact ⟨h.peers.keep rfl, h.offer.keep rfl, h.balance.keep rfl⟩
  | selectPeer peer isOpen listed known =>
    exact ⟨h.peers.keep rfl, .none _ _, h.balance.keep rfl⟩
  | decline offered => exact ⟨h.peers.keep rfl, .none _ _, h.balance.keep rfl⟩
  | confirmRefused record error isOpen offered hrecord refused =>
    exact ⟨h.peers.keep rfl, h.offer.keep rfl, h.balance.keep rfl⟩
  | confirm record peer gate isOpen offered hrecord hpeer passed =>
    exact ⟨h.peers.keep rfl, h.offer.keep rfl, h.balance.keep rfl⟩
  | refreshWallet isOpen idle => exact ⟨h.peers.keep rfl, h.offer.keep rfl, h.balance.keep rfl⟩
  | stale ticket answer unawaited =>
    have hpeers : Entry.peerList? ⟨.answer ticket answer, .received .stale⟩ = none := by
      rcases answer with (_ | _) | _ | _ <;> rfl
    have hoffer : Entry.metadata? ⟨.answer ticket answer, .received .stale⟩ = none := by
      rcases answer with _ | _ | _ <;> rfl
    exact ⟨h.peers.keep hpeers, h.offer.keep hoffer, h.balance.keep rfl⟩
  | listed ticket ids awaited found =>
    obtain ⟨-, hphase, hpending⟩ := (awaits_eq_true_iff n _ _).1 awaited
    have hhash : ticket.hash = n.hash := by rw [hcoherent.pending_eq ticket hpending]
    -- The list is now the latest one, and it was asked for since the negotiation was opened.
    refine ⟨fun peer hpeer => ?_, h.offer.keep rfl, h.balance.keep rfl⟩
    refine ⟨ticket, ids, rfl, mem_issued_cons _ (hissued .providers ticket awaited), hhash, ?_⟩
    obtain ⟨p, hp, rfl⟩ := List.mem_map.1 hpeer
    rcases mem_listProviders hp with hp | ⟨id, hid, htrim, -⟩
    · cases hp
    · exact ⟨id, hid, htrim⟩
  | unlisted ticket ids awaited notFound => exact ⟨.nil _, h.offer.keep rfl, h.balance.keep rfl⟩
  | searchFailed ticket error awaited =>
    exact ⟨h.peers.keep rfl, h.offer.keep rfl, h.balance.keep rfl⟩
  | offered ticket record awaited =>
    obtain ⟨-, hphase, hpending⟩ := (awaits_eq_true_iff n _ _).1 awaited
    have hticket := hcoherent.pending_eq ticket hpending
    -- A price that becomes known changes none of the peers.
    have hpeers : PeersFounded n.hash
        ((setPrice ticket.peer (record.hashed n.hash).price n.providers).map (·.peer))
        (current past) := by
      rw [map_peer_setPrice]
      exact h.peers
    refine ⟨hpeers.keep rfl, fun offer hoffer => ?_, h.balance.keep rfl⟩
    refine ⟨ticket, record, rfl, mem_issued_cons _ (hissued .metadata ticket awaited), ?_, ?_, ?_⟩
    · rw [hticket]
    · rw [hticket, hphase]
      rfl
    · exact Option.some.inj hoffer
  | metadataFailed ticket error awaited =>
    exact ⟨h.peers.keep rfl, .none _ _, h.balance.keep rfl⟩
  | transferred ticket saved awaited =>
    exact ⟨h.peers.keep rfl, h.offer.keep rfl, h.balance.keep rfl⟩
  | transferFailed ticket error awaited =>
    exact ⟨h.peers.keep rfl, h.offer.keep rfl, h.balance.keep rfl⟩
  | walletStale epoch result =>
    exact ⟨h.peers.keep rfl, h.offer.keep rfl, h.balance.keep (by cases result <;> rfl)⟩
  | walletKnown epoch wallet isOpen same =>
    exact ⟨h.peers.keep rfl, h.offer.keep rfl,
      fun amount hamount => ⟨wallet, rfl, Option.some.inj hamount⟩⟩
  | walletFailed epoch error isOpen same =>
    exact ⟨h.peers.keep rfl, h.offer.keep rfl, h.balance.keep rfl⟩

theorem founded_history (past : List Event) :
    Founded (after new past) (current (history new past)) := by
  induction past with
  | nil => exact .blank rfl rfl rfl _
  | cons event past ih =>
    exact ih.transition (Coherent.new.after past) (ticketedBy_history past)
      (transition_perform _ event)

/-! ## The purchase -/

/-- A purchase is requested only by confirming, and since the negotiation was opened: the latest
list of peers that was taken answers a lookup of its hash and names its peer; the latest answer
about metadata that was taken is a record, from its peer and for its hash, and is the record bought;
that record asks for its price, a finite one that is not negative; and the latest wallet that was
taken holds the finite balance that the price was set against. -/
theorem download_founded (past : List Event) (event : Event) (ticket : Ticket) (price : Binary64)
    (record : FileRecord)
    (h : .download ticket price record ∈ (response new past event).requests) :
    event = .move .confirm ∧
    (∃ asked ids, (current (history new past)).findSome? Entry.peerList? = some (asked, ids) ∧
      (.providers, asked) ∈ issued (current (history new past)) ∧ asked.hash = ticket.hash ∧
      ∃ id ∈ ids, ticket.peer = some (trim id)) ∧
    (∃ asked answer,
      (current (history new past)).findSome? Entry.metadata? = some (asked, .ok answer) ∧
      (.metadata, asked) ∈ issued (current (history new past)) ∧ asked.hash = ticket.hash ∧
      asked.peer = ticket.peer ∧ record = answer.hashed ticket.hash) ∧
    record.price = some price ∧ price.isFinite = true ∧ price.lt .zero = false ∧
    ∃ wallet, (current (history new past)).findSome? Entry.wallet? = some wallet ∧
      wallet.current.isFinite = true ∧ (after new past).balance = some wallet.current ∧
      BalanceGate.check (some wallet.current) record.price =
        .ok ⟨wallet.current, price, wallet.current.sub price⟩ := by
  obtain ⟨hevent, hphase, hoffer, hpeer, hticket, ⟨gate, hgate, rfl⟩, -⟩ :=
    (transition_perform (after new past) event).download h
  have hcoherent := Coherent.new.after past
  have hfounded := founded_history past
  have hhash : ticket.hash = (after new past).hash := by rw [hticket]
  obtain ⟨hbalance, hfinite, hprice, hpriceFinite, hnegative, hnew⟩ :=
    (BalanceGate.check_eq_ok_iff _ _ gate).1 hgate
  refine ⟨hevent, ?_, ?_, hprice, hpriceFinite, hnegative, ?_⟩
  · -- An offer has a chosen peer, and that one is listed.
    obtain ⟨peer, hchosen⟩ := Option.isSome_iff_exists.1 (hcoherent.chosen_isSome.2
      (by rcases hphase with hphase | hphase <;> simp [hphase]))
    obtain ⟨asked, ids, hlatest, hissued, hasked, id, hid, htrim⟩ :=
      hfounded.peers peer (hcoherent.chosen_mem peer hchosen)
    exact ⟨asked, ids, hlatest, hissued, hasked.trans hhash.symm, id, hid,
      by rw [← hpeer, hchosen, htrim]⟩
  · obtain ⟨asked, answer, hlatest, hissued, hasked, hfrom, hanswer⟩ :=
      hfounded.offer record hoffer
    exact ⟨asked, answer, hlatest, hissued, hasked.trans hhash.symm, hfrom.trans hpeer,
      by rw [hhash, hanswer]⟩
  · obtain ⟨wallet, hlatest, hcurrent⟩ := hfounded.balance gate.balance hbalance
    refine ⟨wallet, hlatest, hcurrent ▸ hfinite, hcurrent ▸ hbalance, ?_⟩
    rw [hcurrent]
    exact (BalanceGate.check_eq_ok_iff _ _ _).2
      ⟨rfl, hfinite, hprice, hpriceFinite, hnegative, rfl⟩

/-- A song as its provider describes it, without its hash, at a price of 20. -/
def song : FileRecord :=
  { FileRecord.bare "" "song.mp3" with price := some ⟨0x4034000000000000⟩ }

/-- A run up to the offer of the song, with a balance of 500. -/
def songRun : List Event :=
  [.answer ⟨1, 2, "abc123", some "p1"⟩ (.metadata (.ok song)),
    .move (.selectPeer "p1"),
    .answer ⟨1, 1, "abc123", none⟩ (.providers (.ok [" p1 ", "p2"])),
    .wallet 1 (.ok ⟨none, ⟨0x407F400000000000⟩, .zero⟩),
    .start (some "abc123")]

theorem song_download_founded :
    .download ⟨1, 3, "abc123", some "p1"⟩ ⟨0x4034000000000000⟩ (song.hashed "abc123") ∈
      (response new songRun (.move .confirm)).requests ∧
    ∃ asked ids, (current (history new songRun)).findSome? Entry.peerList? = some (asked, ids) ∧
      (.providers, asked) ∈ issued (current (history new songRun)) ∧ asked.hash = "abc123" ∧
      ∃ id ∈ ids, some "p1" = some (trim id) := by
  have hdownload : .download ⟨1, 3, "abc123", some "p1"⟩ ⟨0x4034000000000000⟩
      (song.hashed "abc123") ∈ (response new songRun (.move .confirm)).requests := by decide
  exact ⟨hdownload, (download_founded songRun (.move .confirm) _ _ _ hdownload).2.1⟩

end FileMarket.Negotiation
