import FileMarket.Proofs.Negotiation.Purchase

/-!
# Where the listed prices come from

An answered lookup lists the peers that it names, and no others: a peer that was listed before keeps
the price that is known of it, and a new one has none (`Relisted`). Prices are only ever written by
the records that the peers give. So, in every run, the price beside a peer is that of the latest
record taken from it since it was listed, and there is none if no record was taken since, or if the
latest one asks for no price (`prices_founded`).
-/

set_option autoImplicit false

namespace FileMarket.Negotiation

open FileMarket.Text

/-! ## Lookups that are answered -/

/-- What an answered lookup makes of the list: the peers that are named, with the prices known. -/
structure Relisted (n : Negotiation) (ids : List String) (n' : Negotiation) : Prop where
  peers : n'.providers.map (·.peer) = namedPeers ids
  kept : ∀ p ∈ n'.providers, ∀ q ∈ n.providers, q.peer = p.peer → p.price = q.price
  unpriced : ∀ p ∈ n'.providers, p.peer ∉ n.providers.map (·.peer) → p.price = none
  found : (∃ id ∈ ids, allBlank id = false) → n'.phase = .peerList
  notFound : (∀ id ∈ ids, allBlank id = true) →
    n'.phase = .notFound ∧ n'.error = some (.notFound "No file found with that hash.")

section Lists

variable {n n' : Negotiation} {ticket : Ticket} {ids : List String}

/-- Each peer that is named is listed with the price that was known of it. -/
theorem price_of_mem_listProviders {known : List Provider} {p : Provider}
    (hp : p ∈ listProviders known [] ids) : p.price = knownPrice known p.peer := by
  rw [listProviders_eq] at hp
  obtain ⟨peer, -, rfl⟩ := List.mem_map.1 hp
  rfl

theorem listProviders_eq_nil_iff {known : List Provider} :
    listProviders known [] ids = [] ↔ ∀ id ∈ ids, allBlank id = true := by
  rw [listProviders_eq, List.map_eq_nil_iff, namedPeers_eq_nil_iff]

/-- A lookup that is answered lists what the node named. -/
theorem Transition.relisted (hcoherent : Coherent n)
    (h : Transition n (.answer ticket (.providers (.ok ids))) (.received .accepted) n') :
    Relisted n ids n' := by
  cases h with
  | listed _ _ awaited found =>
    exact {
      peers := map_peer_listProviders n.providers ids
      kept := by
        intro p hp q hq hpeer
        rw [price_of_mem_listProviders hp, ← hpeer, knownPrice_of_mem hcoherent.wellListed.2 hq]
      unpriced := by
        intro p hp hnew
        rw [price_of_mem_listProviders hp, knownPrice_of_not_mem hnew]
      found := fun _ => rfl
      notFound := fun hblank => absurd (listProviders_eq_nil_iff.2 hblank) found }
  | unlisted _ _ awaited notFound =>
    have hblank := listProviders_eq_nil_iff.1 notFound
    exact {
      peers := (namedPeers_eq_nil_iff.2 hblank).symm
      kept := by
        intro p hp
        cases hp
      unpriced := by
        intro p hp
        cases hp
      found := by
        rintro ⟨id, hid, hnonblank⟩
        rw [hblank id hid] at hnonblank
        cases hnonblank
      notFound := fun _ => ⟨rfl, rfl⟩ }

end Lists

/-! ## Prices that are written -/

/-- The record that an entry takes from a peer. -/
def Entry.recordFrom? (peer : String) : Entry → Option FileRecord
  | ⟨.answer ticket (.metadata (.ok record)), .received .accepted⟩ =>
    if ticket.peer = some peer then some record else none
  | _ => none

/-- The price in the latest record that was taken from a peer. -/
def offeredPrice (peer : String) (recent : List Entry) : Option Binary64 :=
  (recent.findSome? (Entry.recordFrom? peer)).bind (·.price)

theorem offeredPrice_cons (peer : String) (entry : Entry) (recent : List Entry) :
    offeredPrice peer (entry :: recent) =
      match entry.recordFrom? peer with
      | some record => record.price
      | none => offeredPrice peer recent := by
  unfold offeredPrice
  rw [List.findSome?_cons]
  cases entry.recordFrom? peer <;> rfl

/-- A step either finds a peer new, and then no price is known of it, or the peer was listed before,
and then its price is that of the record just taken from it, if there is one, and else as before. -/
theorem Transition.price {n n' : Negotiation} {event : Event} {response : Response}
    (hcoherent : Coherent n) (h : Transition n event response n') {p : Provider}
    (hp : p ∈ n'.providers) :
    (p.peer ∉ n.providers.map (·.peer) ∧ p.price = none) ∨
    ∃ q ∈ n.providers, q.peer = p.peer ∧
      p.price = match Entry.recordFrom? p.peer ⟨event, response⟩ with
        | some record => record.price
        | none => q.price := by
  have hnodup := hcoherent.wellListed.2
  cases h with
  | start | startBlank | startUnfit | startSearch | close | submitUnfit | submitSearch
  | unlisted => cases hp
  | refused | submitBlank | refreshPeers | selectPeer | decline | confirmRefused | confirm
  | refreshWallet | searchFailed | metadataFailed | transferred | transferFailed | walletStale
  | walletKnown | walletFailed => exact .inr ⟨p, hp, rfl, rfl⟩
  | stale ticket answer unawaited =>
    refine .inr ⟨p, hp, rfl, ?_⟩
    rcases answer with _ | (_ | _) | _ <;> rfl
  | listed ticket ids awaited found =>
    have hprice : p.price = knownPrice n.providers p.peer := price_of_mem_listProviders hp
    by_cases hbefore : p.peer ∈ n.providers.map (·.peer)
    · obtain ⟨q, hq, hpeer⟩ := List.mem_map.1 hbefore
      refine .inr ⟨q, hq, hpeer, ?_⟩
      rw [hprice, ← hpeer, knownPrice_of_mem hnodup hq]
      rfl
    · exact .inl ⟨hbefore, hprice.trans (knownPrice_of_not_mem hbefore)⟩
  | offered ticket record awaited =>
    obtain ⟨q, hq, hpeer, hprice⟩ := mem_setPrice hnodup hp
    refine .inr ⟨q, hq, hpeer, ?_⟩
    by_cases hfrom : ticket.peer = some p.peer
    · have hentry : Entry.recordFrom? p.peer
          ⟨.answer ticket (.metadata (.ok record)), .received .accepted⟩ = some record := if_pos hfrom
      rw [hprice, if_pos hfrom, FileRecord.hashed_price, hentry]
    · have hentry : Entry.recordFrom? p.peer
          ⟨.answer ticket (.metadata (.ok record)), .received .accepted⟩ = none := if_neg hfrom
      rw [hprice, if_neg hfrom, hentry]

/-! ## Every run -/

/-- A peer was put on the list by an event, and has been on it ever since. -/
structure ListedSince (peer : String) (late : List Event) (event : Event) (early : List Event) :
    Prop where
  absent : peer ∉ (after new early).providers.map (·.peer)
  listed : ∀ recent, recent <:+ late →
    peer ∈ (after new (recent ++ event :: early)).providers.map (·.peer)

/-- The price beside a peer is that of the latest record taken from it since it was listed. -/
theorem price_eq_offeredPrice (past : List Event) {p : Provider}
    (hp : p ∈ (after new past).providers) :
    ∃ late event early, past = late ++ event :: early ∧ ListedSince p.peer late event early ∧
      p.price = offeredPrice p.peer (history (after new (event :: early)) late) := by
  induction past generalizing p with
  | nil => cases hp
  | cons event past ih =>
    have hmem : p.peer ∈ (after new (event :: past)).providers.map (·.peer) :=
      List.mem_map_of_mem hp
    rcases (transition_perform (after new past) event).price (coherent_after past) hp with
      ⟨habsent, hprice⟩ | ⟨q, hq, hpeer, hprice⟩
    · -- The peer has just been put on the list.
      refine ⟨[], event, past, rfl, ⟨habsent, fun recent hrecent => ?_⟩, hprice⟩
      rw [List.suffix_nil.1 hrecent]
      exact hmem
    · obtain ⟨late, entered, early, rfl, hsince, hbefore⟩ := ih hq
      rw [hpeer] at hsince hbefore
      refine ⟨event :: late, entered, early, rfl, ⟨hsince.absent, fun recent hrecent => ?_⟩, ?_⟩
      · rcases List.suffix_cons_iff.1 hrecent with rfl | hrecent
        · exact hmem
        · exact hsince.listed recent hrecent
      · rw [hprice, hbefore, history, offeredPrice_cons, response, ← after_append]

/-- In every run, a lookup that is answered lists the peers that are named, each where it is named
first, with the prices known of them, and nothing is found exactly if all the ids are blank. And the
price beside each peer is that of the latest record taken from it since it was listed. -/
theorem prices_founded (past : List Event) :
    (∀ ticket ids,
      response new past (.answer ticket (.providers (.ok ids))) = .received .accepted →
      Relisted (after new past) ids
        (after new (.answer ticket (.providers (.ok ids)) :: past))) ∧
    ∀ p ∈ (after new past).providers, ∃ late event early, past = late ++ event :: early ∧
      ListedSince p.peer late event early ∧
      p.price = offeredPrice p.peer (history (after new (event :: early)) late) := by
  refine ⟨fun ticket ids haccepted => ?_, fun p hp => price_eq_offeredPrice past hp⟩
  have hrule := transition_perform (after new past) (.answer ticket (.providers (.ok ids)))
  rw [show ((after new past).perform _).2 = Response.received .accepted from haccepted] at hrule
  exact hrule.relisted (coherent_after past)

/-- A run in which a peer offers the song, the offer is declined, and the peers are looked up
again. -/
def declinedRun : List Event := [.move .refreshPeers, .move .decline] ++ songRun

/-- The answer to the second lookup: one peer is named again, one is new, and one is gone. -/
def secondList : Event := .answer ⟨1, 3, "abc123", none⟩ (.providers (.ok ["p3", "", " p1", "p3 "]))

theorem declinedRun_relisted :
    response new declinedRun secondList = .received .accepted ∧
    Relisted (after new declinedRun) ["p3", "", " p1", "p3 "]
      (after new (secondList :: declinedRun)) := by
  have haccepted : response new declinedRun secondList = .received .accepted := by decide
  exact ⟨haccepted, (prices_founded declinedRun).1 _ _ haccepted⟩

/-- The peer that is named again keeps the price it offered, and the new one has none. -/
example : (after new (secondList :: declinedRun)).providers =
    [⟨"p3", none⟩, ⟨"p1", some ⟨0x4034000000000000⟩⟩] := by decide

end FileMarket.Negotiation
