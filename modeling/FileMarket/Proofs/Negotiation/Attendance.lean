import FileMarket.Proofs.Negotiation.Coherence

/-!
# Questions that are out

A negotiation waits for an answer only as long as somebody is to bring it.
`Attended n asked wallets` says so of the questions that are out, those with a ticket and those for
the wallet. What is asked goes out (`Attended.after`), and a question whose answer was offered is no
longer out, whether the answer was taken or not (`Attended.receive`, `Attended.walletLoaded`).
-/

set_option autoImplicit false

namespace FileMarket

/-- The epoch of a request for the wallet. -/
def Request.wallet? : Request → Option Nat
  | .wallet epoch => some epoch
  | _ => none

namespace Negotiation

/-- The requests made in a history, those of the latest event first. -/
def requested (past : List Entry) : List Request := past.flatMap (·.response.requests)

/-! ## Questions with a ticket -/

/-- The ticket that is waited for is out exactly once, with the question that the phase waits for,
and none is out that was not issued. -/
structure Asked (n : Negotiation) (asked : List (Query × Ticket)) : Prop where
  pending : ∀ ticket, n.pending = some ticket → ∃ query : Query, query.phase = n.phase ∧
    asked.filter (fun question => question.2 = ticket) = [(query, ticket)]
  issued : ∀ question ∈ asked, question.2.epoch < n.epoch ∨
    question.2.epoch = n.epoch ∧ question.2.seq ≤ n.seq

namespace Asked

variable {n n' : Negotiation} {asked : List (Query × Ticket)}

theorem perm {asked' : List (Query × Ticket)} (h : Asked n asked) (hperm : asked.Perm asked') :
    Asked n asked' where
  pending ticket hticket := by
    obtain ⟨query, hphase, hfilter⟩ := h.pending ticket hticket
    refine ⟨query, hphase, ?_⟩
    have hfilter' := hperm.filter fun question => question.2 = ticket
    rw [hfilter] at hfilter'
    exact (List.singleton_perm.1 hfilter').symm
  issued question hmem := h.issued question (hperm.mem_iff.2 hmem)

/-- A step that asks nothing and leaves what is waited for as it is. -/
theorem keep (h : Asked n asked) (hepoch : n'.epoch = n.epoch) (hseq : n'.seq = n.seq)
    (hpending : n'.pending = n.pending) (hphase : n'.phase = n.phase) : Asked n' asked where
  pending := by rw [hpending, hphase]; exact h.pending
  issued := by rw [hepoch, hseq]; exact h.issued

/-- A step after which no answer is waited for. -/
theorem settle (h : Asked n asked) (hepoch : n'.epoch = n.epoch) (hseq : n'.seq = n.seq)
    (hpending : n'.pending = none) : Asked n' asked where
  pending ticket hticket := by rw [hpending] at hticket; cases hticket
  issued := by rw [hepoch, hseq]; exact h.issued

/-- A new epoch begins. -/
theorem restart (h : Asked n asked) (hepoch : n'.epoch = n.epoch + 1)
    (hpending : n'.pending = none) : Asked n' asked where
  pending ticket hticket := by rw [hpending] at hticket; cases hticket
  issued question hmem := by
    rcases h.issued question hmem with hlt | ⟨heq, -⟩
    · left; omega
    · left; omega

/-- The next question goes out. -/
theorem ask (h : Asked n asked) (query : Query) (ticket : Ticket)
    (hticket : ticket.epoch = n.epoch ∧ ticket.seq = n.seq + 1) (hepoch : n'.epoch = n.epoch)
    (hseq : n'.seq = n.seq + 1) (hphase : n'.phase = query.phase)
    (hpending : n'.pending = some ticket) : Asked n' ((query, ticket) :: asked) where
  pending ticket' hticket' := by
    obtain rfl := Option.some.inj (hpending.symm.trans hticket')
    refine ⟨query, hphase.symm, ?_⟩
    -- Its number is new, so no question that is out has this ticket.
    rw [List.filter_cons_of_pos (by simp), List.filter_eq_nil_iff.2]
    intro question hmem heq
    rw [decide_eq_true_eq] at heq
    have hissued := h.issued question hmem
    rw [heq] at hissued
    omega
  issued question hmem := by
    rcases List.mem_cons.1 hmem with rfl | hmem
    · right; dsimp only; omega
    · rcases h.issued question hmem with hlt | ⟨heq, hle⟩
      · left; omega
      · right; omega

/-- A question that is not waited for comes in. -/
theorem drop {query : Query} {ticket : Ticket} (h : Asked n ((query, ticket) :: asked))
    (unawaited : ¬ (n.phase = query.phase ∧ n.pending = some ticket)) : Asked n asked where
  pending ticket' hticket' := by
    obtain ⟨query', hphase, hfilter⟩ := h.pending ticket' hticket'
    refine ⟨query', hphase, ?_⟩
    by_cases heq : ticket = ticket'
    · -- It would be the only one out with the ticket, and so of the kind waited for.
      rw [List.filter_cons_of_pos (by simpa using heq)] at hfilter
      obtain ⟨hquery, -⟩ := List.cons.inj hfilter
      obtain ⟨rfl, -⟩ := Prod.mk.inj hquery
      exact absurd ⟨hphase.symm, heq ▸ hticket'⟩ unawaited
    · rwa [List.filter_cons_of_neg (by simpa using heq)] at hfilter
  issued question hmem := h.issued question (List.mem_cons_of_mem _ hmem)

/-- Every rule keeps the question that is waited for out. -/
theorem transition {event : Event} {response : Response} (h : Asked n asked) (hn : Coherent n)
    (hrule : Transition n event response n') :
    Asked n' (response.requests.filterMap Request.ticketed? ++ asked) := by
  cases hrule with
  | start => exact h.restart rfl rfl
  | startBlank text blank => exact h.restart rfl rfl
  | startUnfit text unfit => exact h.restart rfl rfl
  | startSearch text fit =>
    have hopened : Asked (opened (n.epoch + 1)) asked := h.restart rfl rfl
    exact hopened.ask .providers _ ⟨rfl, rfl⟩ rfl rfl rfl rfl
  | close => exact h.restart rfl rfl
  | submitUnfit text isOpen idle unoffered unfit =>
    exact h.settle rfl rfl (hn.pending_eq_none idle)
  | submitSearch text isOpen idle unoffered fit =>
    exact h.ask .providers _ ⟨rfl, rfl⟩ rfl rfl rfl rfl
  | refreshPeers isOpen listed => exact h.ask .providers _ ⟨rfl, rfl⟩ rfl rfl rfl rfl
  | selectPeer peer isOpen listed known => exact h.ask .metadata _ ⟨rfl, rfl⟩ rfl rfl rfl rfl
  | decline offered => exact h.settle rfl rfl (hn.pending_eq_none (by rw [offered]; rfl))
  | confirm record peer gate isOpen offered hrecord hpeer passed =>
    exact h.ask .transfer _ ⟨rfl, rfl⟩ rfl rfl rfl rfl
  | listed | unlisted | searchFailed | offered | metadataFailed | transferred | transferFailed =>
    exact h.settle rfl rfl rfl
  | refused | submitBlank | confirmRefused | refreshWallet | stale | walletStale | walletKnown
  | walletFailed => exact h.keep rfl rfl rfl rfl

end Asked

/-- An answer that was offered is not waited for any more: it was taken, or it is not the one. -/
theorem Coherent.unawaited_receive {n : Negotiation} (hn : Coherent n) (ticket : Ticket)
    (answer : Answer) : ¬ ((n.receive ticket answer).1.phase = answer.query.phase ∧
      (n.receive ticket answer).1.pending = some ticket) := by
  rintro ⟨hphase, hpending⟩
  have hrule := transition_receive n ticket answer
  generalize n.receive ticket answer = step at hrule hphase hpending
  obtain ⟨n', reception⟩ := step
  cases hrule with
  | stale _ _ unawaited =>
    have isOpen := hn.isOpen fun hidle => by
      have hbusy := answer.query.phase_isBusy
      rw [← hphase, hidle] at hbusy
      cases hbusy
    rw [(awaits_eq_true_iff _ _ _).2 ⟨isOpen, hphase, hpending⟩] at unawaited
    cases unawaited
  | listed | unlisted | searchFailed | offered | metadataFailed | transferred | transferFailed =>
    cases hpending

/-! ## Questions for the wallet -/

/-- A wallet that is not asked for again leaves the negotiation as it was. -/
theorem refreshWallet_of_error {n n' : Negotiation} {error : MarketError}
    (h : n.refreshWallet = (n', .error error)) : n' = n := by
  have hrule := transition_refreshWallet n
  rw [h] at hrule
  cases hrule
  rfl

/-- The wallet is only refused as busy while it is waited for. -/
theorem refreshWallet_ne_busy {n : Negotiation} (idle : n.walletPending = false) (what : String) :
    n.refreshWallet.2 ≠ .error (.busy what) := by
  unfold refreshWallet requireOpen
  cases n.isOpen with
  | false => simp [refuse]
  | true => simp [idle]

/-- A request for the wallet is out once in the present epoch if one is waited for, else none is,
and none is out for an epoch to come. -/
structure WalletAsked (n : Negotiation) (wallets : List Nat) : Prop where
  count : wallets.count n.epoch = if n.walletPending then 1 else 0
  epoch_le : ∀ epoch ∈ wallets, epoch ≤ n.epoch

namespace WalletAsked

variable {n n' : Negotiation} {wallets : List Nat}

/-- No request for the wallet is out for the next epoch. -/
theorem count_next (h : WalletAsked n wallets) : wallets.count (n.epoch + 1) = 0 := by
  refine List.count_eq_zero_of_not_mem fun hmem => ?_
  have hle := h.epoch_le _ hmem
  omega

theorem perm {wallets' : List Nat} (h : WalletAsked n wallets) (hperm : wallets.Perm wallets') :
    WalletAsked n wallets' where
  count := by rw [← hperm.count_eq, h.count]
  epoch_le epoch hmem := h.epoch_le epoch (hperm.mem_iff.2 hmem)

theorem keep (h : WalletAsked n wallets) (hepoch : n'.epoch = n.epoch)
    (hwallet : n'.walletPending = n.walletPending) : WalletAsked n' wallets where
  count := by rw [hepoch, hwallet, h.count]
  epoch_le := by rw [hepoch]; exact h.epoch_le

/-- A request for the wallet goes out. -/
theorem ask (h : WalletAsked n wallets) (hle : n.epoch ≤ n'.epoch)
    (hcount : wallets.count n'.epoch = 0) (hwallet : n'.walletPending = true) :
    WalletAsked n' (n'.epoch :: wallets) where
  count := by rw [List.count_cons_self, hcount, hwallet]; rfl
  epoch_le epoch hmem := by
    rcases List.mem_cons.1 hmem with rfl | hmem
    · exact Nat.le_refl _
    · exact (h.epoch_le epoch hmem).trans hle

/-- The wallet is asked for with every start and on request, and no other step touches it but the
answer. -/
theorem transition {event : Event} {response : Response} (h : WalletAsked n wallets)
    (hrule : Transition n event response n')
    (hevent : ∀ epoch result, event ≠ .wallet epoch result) :
    WalletAsked n' (response.requests.filterMap Request.wallet? ++ wallets) := by
  cases hrule with
  | start => exact h.ask (Nat.le_succ _) h.count_next rfl
  | startBlank text blank => exact h.ask (Nat.le_succ _) h.count_next rfl
  | startUnfit text unfit => exact h.ask (Nat.le_succ _) h.count_next rfl
  | startSearch text fit => exact h.ask (Nat.le_succ _) h.count_next rfl
  | close => exact ⟨h.count_next, fun epoch hmem => (h.epoch_le epoch hmem).trans (Nat.le_succ _)⟩
  | refreshWallet isOpen idle =>
    refine h.ask (Nat.le_refl _) ?_ rfl
    have hcount := h.count
    rwa [idle] at hcount
  | walletStale epoch result => exact absurd rfl (hevent epoch result)
  | walletKnown epoch wallet isOpen same => exact absurd rfl (hevent epoch _)
  | walletFailed epoch error isOpen same => exact absurd rfl (hevent epoch _)
  | refused | submitBlank | submitUnfit | submitSearch | refreshPeers | selectPeer | decline
  | confirmRefused | confirm | stale | listed | unlisted | searchFailed | offered | metadataFailed
  | transferred | transferFailed => exact h.keep rfl rfl

/-- A wallet of another epoch changes nothing, and that of the present epoch is waited for. -/
theorem walletLoaded {epoch : Nat} (h : WalletAsked n (epoch :: wallets)) (hn : Coherent n)
    (result : Outcome Wallet) : WalletAsked (n.walletLoaded epoch result).1 wallets := by
  have hcount := h.count
  have hle : ∀ epoch ∈ wallets, epoch ≤ n.epoch := fun epoch' hmem =>
    h.epoch_le epoch' (List.mem_cons_of_mem epoch hmem)
  by_cases hepoch : epoch = n.epoch
  · subst hepoch
    rw [List.count_cons_self] at hcount
    have hpending : n.walletPending = true := by
      by_contra hidle
      rw [if_neg hidle] at hcount
      cases hcount
    have hnone : wallets.count n.epoch = 0 := by
      rw [if_pos hpending] at hcount
      omega
    have isOpen : n.isOpen = true := by
      by_contra hclosed
      rw [hn.eq_closed (Bool.eq_false_iff.2 hclosed)] at hpending
      cases hpending
    unfold Negotiation.walletLoaded
    rw [if_neg (by simp [isOpen])]
    cases result with
    | ok wallet => exact ⟨hnone, hle⟩
    | error error => exact ⟨hnone, hle⟩
  · unfold Negotiation.walletLoaded
    rw [if_pos (by simp [hepoch])]
    rw [List.count_cons_of_ne hepoch] at hcount
    exact ⟨hcount, hle⟩

end WalletAsked

/-! ## Both -/

/-- A negotiation all of whose questions are out as it waits for them. -/
structure Attended (n : Negotiation) (asked : List (Query × Ticket)) (wallets : List Nat) :
    Prop where
  coherent : Coherent n
  asked : Asked n asked
  wallets : WalletAsked n wallets

namespace Attended

variable {n : Negotiation} {asked : List (Query × Ticket)} {wallets : List Nat}

/-- What a run asks goes out. -/
theorem after (h : Attended n asked wallets) (past : List Event)
    (hpast : ∀ event ∈ past, ∀ epoch result, event ≠ .wallet epoch result) :
    Attended (after n past)
      ((requested (history n past)).filterMap Request.ticketed? ++ asked)
      ((requested (history n past)).filterMap Request.wallet? ++ wallets) := by
  induction past with
  | nil => exact h
  | cons event past ih =>
    obtain ⟨hevent, hpast⟩ := List.forall_mem_cons.1 hpast
    obtain ⟨hcoherent, hasked, hwallets⟩ := ih hpast
    have hrule := transition_perform (Negotiation.after n past) event
    have hasked := hasked.transition hcoherent hrule
    have hwallets := hwallets.transition hrule hevent
    rw [← List.append_assoc, ← List.filterMap_append] at hasked hwallets
    exact ⟨hcoherent.transition hrule, hasked, hwallets⟩

/-- An answer that was offered is not waited for any more. -/
theorem receive {ticket : Ticket} (answer : Answer)
    (h : Attended n ((answer.query, ticket) :: asked) wallets) :
    Attended (n.receive ticket answer).1 asked wallets := by
  have hrule := transition_receive n ticket answer
  have hasked := h.asked.transition h.coherent hrule
  have hwallets := h.wallets.transition hrule fun _ _ heq => by cases heq
  exact ⟨h.coherent.transition hrule, hasked.drop (h.coherent.unawaited_receive ticket answer),
    hwallets⟩

theorem walletLoaded {epoch : Nat} (h : Attended n asked (epoch :: wallets))
    (result : Outcome Wallet) : Attended (n.walletLoaded epoch result).1 asked wallets := by
  have hrule := transition_wallet n epoch result
  exact ⟨h.coherent.transition hrule, h.asked.transition h.coherent hrule,
    h.wallets.walletLoaded h.coherent result⟩

theorem new : Attended new [] [] where
  coherent := Coherent.new
  asked := ⟨fun ticket hticket => (by cases hticket), fun _ hmem => (by cases hmem)⟩
  wallets := ⟨rfl, fun _ hmem => (by cases hmem)⟩

end Attended

end Negotiation

end FileMarket
