import FileMarket.Proofs.Negotiation.Coherence

/-!
# Lookups that fail

A lookup of providers that fails leads to the phase that was remembered when it was asked. A refresh
remembers the peer list that it was asked from, and comes back to it with nothing lost. A search
drops what was found before and remembers the idle phase, whatever the phase it was asked from
(`failed_lookup`), so a search from another phase loses its place (`search_loses_place`).
-/

set_option autoImplicit false

namespace FileMarket.Negotiation

open FileMarket.Text

/-- The negotiation after a refresh that failed. -/
def refreshFailed (n : Negotiation) (error : MarketError) : Negotiation :=
  { n with
    seq := n.seq + 1
    resume := .peerList
    error := some error }

/-- The negotiation after a search that failed: nothing is left but the hash. -/
def searchFailed (n : Negotiation) (hash : String) (error : MarketError) : Negotiation :=
  { n with
    seq := n.seq + 1
    hash := hash
    phase := .idle
    resume := .idle
    providers := []
    chosen := none
    metadata := none
    error := some error
    saved := none }

section Lookups

variable {n n' : Negotiation}

/-- Only a refresh and a search ask for providers alone. -/
theorem Transition.lookup {move : Move} {ticket : Ticket}
    (h : Transition n (.move move) (.made [.providers ticket]) n') :
    n'.awaits .searching ticket = true ∧ n.phase.isBusy = false ∧
      (move = .refreshPeers ∧ n.phase = .peerList ∧
          n' = { n with
            seq := n.seq + 1
            phase := .searching
            resume := .peerList
            pending := some ticket
            error := none } ∨
        ∃ text, move = .submit text ∧ n' = n.sought (trim text)) := by
  cases h with
  | submitSearch text isOpen idle unoffered fit =>
    have awaited := (awaits_eq_true_iff (n.sought (trim text)) .searching _).2 ⟨isOpen, rfl, rfl⟩
    exact ⟨awaited, idle, .inr ⟨text, rfl, rfl⟩⟩
  | refreshPeers isOpen listed =>
    refine ⟨(awaits_eq_true_iff _ _ _).2 ⟨isOpen, rfl, rfl⟩, ?_, .inl ⟨rfl, listed, rfl⟩⟩
    rw [listed]
    rfl

/-- The failure of a lookup that is waited for leads to the phase remembered. -/
theorem receive_failure {ticket : Ticket} (awaited : n.awaits .searching ticket = true)
    (error : MarketError) : n.receive ticket (.providers (.error error)) =
      ({ n with phase := n.resume, pending := none, error := some error }, .accepted) := by
  have hreceive : n.receive ticket (.providers (.error error)) =
      n.peersLoaded ticket (.error error) := rfl
  rw [hreceive, peersLoaded, if_neg (by rw [awaited]; exact Bool.false_ne_true)]

/-- A refresh comes back to the list that it was asked from. -/
theorem refreshFailed_eq (listed : n.phase = .peerList) (unasked : n.pending = none)
    (error : MarketError) :
    n.refreshFailed error =
      { n with
        seq := n.seq + 1
        phase := .peerList
        resume := .peerList
        pending := none
        error := some error } := by
  unfold refreshFailed
  rw [← unasked]
  cases n
  cases listed
  rfl

theorem searchFailed_eq (hash : String) (unasked : n.pending = none) (error : MarketError) :
    n.searchFailed hash error =
      { n.sought hash with phase := .idle, pending := none, error := some error } := by
  unfold searchFailed
  rw [← unasked]
  rfl

/-- What a lookup leads to that is asked with nothing under way, and fails. -/
theorem Transition.lookup_failed {move : Move} {ticket : Ticket}
    (h : Transition n (.move move) (.made [.providers ticket]) n') (unasked : n.pending = none)
    (error : MarketError) :
    let failed : Negotiation := { n' with phase := n'.resume, pending := none, error := some error }
    move = .refreshPeers ∧ failed = n.refreshFailed error ∨
      ∃ text, move = .submit text ∧ failed = n.searchFailed (trim text) error := by
  obtain ⟨-, -, ⟨hmove, listed, rfl⟩ | ⟨text, hmove, rfl⟩⟩ := h.lookup
  · exact .inl ⟨hmove, (refreshFailed_eq listed unasked error).symm⟩
  · exact .inr ⟨text, hmove, (searchFailed_eq (trim text) unasked error).symm⟩

end Lookups

/-- In every run, when a search or a refresh asks for providers and the next thing is that this
fails, then the failure is taken and shown. After a refresh all is as it was, but for the number of
the ticket, the phase to go back to, and the error. After a search the phase is idle and only the
hash is left. So the phase is again the one that the lookup was asked from exactly if this was a
refresh, or a search from the idle phase. -/
theorem failed_lookup (past : List Event) (move : Move) (ticket : Ticket) (error : MarketError)
    (h : response new past (.move move) = .made [.providers ticket]) :
    let failed : List Event := .answer ticket (.providers (.error error)) :: .move move :: past
    response new (.move move :: past) (.answer ticket (.providers (.error error))) =
        .received .accepted ∧
      (after new failed).shownError = some error ∧
      (move = .refreshPeers ∧ after new failed = (after new past).refreshFailed error ∨
        ∃ text, move = .submit text ∧
          after new failed = (after new past).searchFailed (trim text) error) ∧
      ((after new failed).phase = (after new past).phase ↔
        move = .refreshPeers ∨ (after new past).phase = .idle) := by
  intro failed
  let asked := (after new past).perform (.move move)
  have hrule := transition_perform (after new past) (.move move)
  rw [show asked.2 = .made [.providers ticket] from h] at hrule
  obtain ⟨awaited, idle, -⟩ := hrule.lookup
  have hfailure := receive_failure awaited error
  have hresponse : response new (.move move :: past) (.answer ticket (.providers (.error error))) =
      .received .accepted := by
    show Response.received (asked.1.receive ticket (.providers (.error error))).2 = _
    rw [hfailure]
  have hafter : after new failed =
      { asked.1 with phase := asked.1.resume, pending := none, error := some error } := by
    show (asked.1.receive ticket (.providers (.error error))).1 = _
    rw [hfailure]
  -- Where nothing is busy, nothing is waited for that the lookup could displace.
  have unasked := (Coherent.new.after past).pending_eq_none idle
  rcases hrule.lookup_failed unasked error with ⟨rfl, hback⟩ | ⟨text, rfl, hback⟩
  · rw [← hafter] at hback
    refine ⟨hresponse, congrArg shownError hback, .inl ⟨rfl, hback⟩, ?_⟩
    rw [hback]
    exact iff_of_true rfl (.inl rfl)
  · rw [← hafter] at hback
    refine ⟨hresponse, congrArg shownError hback, .inr ⟨text, rfl, hback⟩, ?_⟩
    -- The phase is idle now, so it is the old one only where that was idle as well.
    have hidle : (after new failed).phase = .idle := congrArg phase hback
    rw [hidle]
    constructor
    · intro hphase
      exact .inr hphase.symm
    · rintro (hmove | hphase)
      · cases hmove
      · exact hphase.symm

/-- Two peers are listed, of which one has made an offer that was declined. -/
def declinedOffer : List Event :=
  [.move .decline,
    .answer ⟨1, 2, "abc123", some "p1"⟩
      (.metadata (.ok { FileRecord.bare "" "song.mp3" with price := some .zero })),
    .move (.selectPeer "p1"),
    .answer ⟨1, 1, "abc123", none⟩ (.providers (.ok ["p1", "p2"])),
    .start (some "abc123")]

/-- The list is looked up again in vain, and shows as before, with the price of the offer. -/
theorem declinedOffer_refreshed :
    response new declinedOffer (.move .refreshPeers) =
        .made [.providers ⟨1, 3, "abc123", none⟩] ∧
      after new (.answer ⟨1, 3, "abc123", none⟩ (.providers (.error (.transport "timeout"))) ::
          .move .refreshPeers :: declinedOffer) =
        (after new declinedOffer).refreshFailed (.transport "timeout") ∧
      (after new declinedOffer).providers = [⟨"p1", some .zero⟩, ⟨"p2", none⟩] := by
  have hasked : response new declinedOffer (.move .refreshPeers) =
      .made [.providers ⟨1, 3, "abc123", none⟩] := by decide
  obtain ⟨-, -, hback, -⟩ := failed_lookup declinedOffer _ _ (.transport "timeout") hasked
  refine ⟨hasked, ?_, by decide⟩
  rcases hback with ⟨-, hback⟩ | ⟨text, hmove, -⟩
  · exact hback
  · cases hmove

/-- A hash that nobody provides was looked up. -/
def unknownHash : List Event :=
  [.answer ⟨1, 1, "abc123", none⟩ (.providers (.ok [])), .start (some "abc123")]

/-- The next search fails, and the negotiation is idle instead of in the phase it was in. -/
theorem search_loses_place :
    (after new unknownHash).phase = .notFound ∧
      response new unknownHash (.move (.submit "f00d")) =
        .made [.providers ⟨1, 2, "f00d", none⟩] ∧
      (after new (.answer ⟨1, 2, "f00d", none⟩ (.providers (.error (.transport "timeout"))) ::
        .move (.submit "f00d") :: unknownHash)).phase = .idle := by
  decide

end FileMarket.Negotiation
