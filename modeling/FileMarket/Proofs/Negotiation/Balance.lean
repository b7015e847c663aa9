import FileMarket.Proofs.Negotiation.Attendance
import FileMarket.Proofs.Negotiation.Purchase

/-!
# The newest balance

Answers about the wallet carry the epoch of their request and no number, so two answers of one epoch
cannot be told apart. They need not be: while one request of an epoch is unanswered no other is made
(`walletAsked_history`, `count_unanswered_le`), so the answers of an epoch come in the order of
their requests. The balance is that of the last wallet taken in the present epoch, and the wallet's
error that of the last answer, until the wallet is asked for again (`newest_balance`).
-/

set_option autoImplicit false

namespace FileMarket.Negotiation

/-! ## Requests for the wallet and their answers -/

/-- The epoch of the answer about the wallet that an entry offers. -/
def Entry.walletOffered? : Entry → Option Nat
  | ⟨.wallet epoch _, _⟩ => some epoch
  | _ => none

/-- The requests for the wallet that no answer was offered to yet, by their epochs. An answer is one
to a request of the epoch that it carries. -/
def unanswered : List Entry → List Nat
  | [] => []
  | entry :: past => match entry.walletOffered? with
    | some epoch => (unanswered past).erase epoch
    | none => entry.response.requests.filterMap Request.wallet? ++ unanswered past

/-- Every answer about the wallet is one to a request made before, and no request has two. -/
def AnsweredOnce : List Entry → Prop
  | [] => True
  | entry :: past => (∀ epoch ∈ entry.walletOffered?, epoch ∈ unanswered past) ∧ AnsweredOnce past

instance decidableAnsweredOnce : (past : List Entry) → Decidable (AnsweredOnce past)
  | [] => isTrue trivial
  | _ :: past =>
    have := decidableAnsweredOnce past
    inferInstanceAs (Decidable (_ ∧ _))

theorem unanswered_cons_of_offered {entry : Entry} {epoch : Nat}
    (h : entry.walletOffered? = some epoch) (past : List Entry) :
    unanswered (entry :: past) = (unanswered past).erase epoch := by
  simp only [unanswered, h]

theorem unanswered_cons_of_not_offered {entry : Entry} (h : entry.walletOffered? = none)
    (past : List Entry) : unanswered (entry :: past) =
      entry.response.requests.filterMap Request.wallet? ++ unanswered past := by
  simp only [unanswered, h]

/-- A request for the wallet is one of the epoch that it leads to. -/
theorem Transition.epoch_of_wallet {n n' : Negotiation} {event : Event} {response : Response}
    (h : Transition n event response n') :
    ∀ epoch ∈ response.requests.filterMap Request.wallet?, epoch = n'.epoch := by
  intro epoch hmem
  cases h <;> simp [Response.requests, Request.wallet?] at hmem <;> exact hmem

/-- A request for the wallet is unanswered in the present epoch exactly while one is waited for. -/
theorem walletAsked_history {past : List Event} (h : AnsweredOnce (history new past)) :
    WalletAsked (after new past) (unanswered (history new past)) := by
  induction past with
  | nil => exact Attended.new.wallets
  | cons event past ih =>
    obtain ⟨hevent, hpast⟩ := h
    have hasked := ih hpast
    cases event with
    | wallet epoch result =>
      rw [history, unanswered_cons_of_offered rfl]
      have hmem := hevent epoch rfl
      exact (hasked.perm (List.perm_cons_erase hmem)).walletLoaded (Coherent.new.after past) result
    | _ => exact hasked.transition (transition_perform _ _) fun _ _ heq => by cases heq

/-- No epoch has two requests for the wallet that are unanswered. -/
theorem count_unanswered_le {past : List Event} (h : AnsweredOnce (history new past))
    (epoch : Nat) : (unanswered (history new past)).count epoch ≤ 1 := by
  induction past with
  | nil => exact Nat.zero_le 1
  | cons event past ih =>
    have hasked := walletAsked_history h
    obtain ⟨-, hpast⟩ := h
    have hbefore := ih hpast
    by_cases hepoch : epoch = (after new (event :: past)).epoch
    · rw [hepoch, hasked.count]
      split
      · exact Nat.le_refl 1
      · exact Nat.zero_le 1
    · -- In any other epoch nothing is asked, and an answer can only take a request away.
      rw [history]
      cases hoffered : Entry.walletOffered? ⟨event, response new past event⟩ with
      | some offered =>
        rw [unanswered_cons_of_offered hoffered]
        exact (List.erase_sublist.count_le epoch).trans hbefore
      | none =>
        have hrule : Transition (after new past) event (response new past event)
            (after new (event :: past)) := transition_perform _ event
        have hnone :
            ((response new past event).requests.filterMap Request.wallet?).count epoch = 0 :=
          List.count_eq_zero_of_not_mem fun hmem => hepoch (hrule.epoch_of_wallet epoch hmem)
        rw [unanswered_cons_of_not_offered hoffered, List.count_append, hnone, Nat.zero_add]
        exact hbefore

/-- Another wallet is refused as busy exactly while one is waited for. -/
theorem Coherent.refreshWallet_busy_iff {n : Negotiation} (hn : Coherent n) :
    (n.make .refreshWallet).2 = .refused (.busy "a wallet fetch") ↔ n.walletPending = true := by
  unfold make refreshWallet requireOpen
  cases hopen : n.isOpen with
  | false =>
    have hpending : n.walletPending = false := congrArg walletPending (hn.eq_closed hopen)
    simp [hpending, refuse, respond]
  | true => cases n.walletPending <;> simp [refuse, respond]

/-! ## What is known of the wallet -/

/-- Whether an entry begins an epoch: it opens the negotiation or closes it. -/
def Entry.beginsEpoch : Entry → Bool
  | ⟨.start _, _⟩ | ⟨.close, _⟩ => true
  | _ => false

/-- The entries of the present epoch, after the one that began it. -/
def thisEpoch (past : List Entry) : List Entry := past.takeWhile fun entry => !entry.beginsEpoch

/-- The error of the answer about the wallet that an entry takes. -/
def Entry.walletFailure? : Entry → Option MarketError
  | ⟨.wallet _ (.error error), .received .accepted⟩ => some error
  | _ => none

/-- Whether an entry decides anew if there is an error to show of the wallet: it takes an answer, or
asks for the wallet again. -/
def Entry.decidesWallet : Entry → Bool
  | ⟨.wallet _ _, .received .accepted⟩ | ⟨.move .refreshWallet, .made _⟩ => true
  | _ => false

/-- The wallet was last answered with an error, and was not asked for since. -/
def LastFailure (recent : List Entry) (error : MarketError) : Prop :=
  ∃ late entry early, recent = late ++ entry :: early ∧ entry.walletFailure? = some error ∧
    ∀ e ∈ late, e.decidesWallet = false

section LastFailure

variable {entry : Entry} {recent : List Entry} {error : MarketError}

theorem not_lastFailure_nil : ¬ LastFailure [] error := by
  rintro ⟨late, entry, early, hrecent, -⟩
  simp at hrecent

theorem lastFailure_cons_of_decides (h : entry.decidesWallet = true) :
    LastFailure (entry :: recent) error ↔ entry.walletFailure? = some error := by
  constructor
  · rintro ⟨late, failed, early, hrecent, hfailed, hlate⟩
    cases late with
    | nil =>
      obtain ⟨rfl, -⟩ := List.cons.inj hrecent
      exact hfailed
    | cons first late =>
      obtain ⟨rfl, -⟩ := List.cons.inj hrecent
      rw [hlate entry List.mem_cons_self] at h
      cases h
  · intro hfailed
    exact ⟨[], entry, recent, rfl, hfailed, fun _ hmem => by cases hmem⟩

theorem lastFailure_cons_of_not_decides (h : entry.decidesWallet = false)
    (hfailure : entry.walletFailure? = none) :
    LastFailure (entry :: recent) error ↔ LastFailure recent error := by
  constructor
  · rintro ⟨late, failed, early, hrecent, hfailed, hlate⟩
    cases late with
    | nil =>
      obtain ⟨rfl, -⟩ := List.cons.inj hrecent
      rw [hfailure] at hfailed
      cases hfailed
    | cons first late =>
      obtain ⟨-, rfl⟩ := List.cons.inj hrecent
      exact ⟨late, failed, early, rfl, hfailed, (List.forall_mem_cons.1 hlate).2⟩
  · rintro ⟨late, failed, early, rfl, hfailed, hlate⟩
    exact ⟨entry :: late, failed, early, rfl, hfailed, List.forall_mem_cons.2 ⟨h, hlate⟩⟩

end LastFailure

/-- What a negotiation knows of the wallet is what the entries of the epoch tell. -/
structure WalletTold (n : Negotiation) (recent : List Entry) : Prop where
  balance : n.balance = (recent.findSome? Entry.wallet?).map Wallet.current
  walletError : ∀ error, n.walletError = some error ↔ LastFailure recent error

namespace WalletTold

variable {n n' : Negotiation} {past : List Entry} {event : Event} {response : Response}

/-- Nothing is known at the beginning of an epoch. -/
theorem blank (hbalance : n.balance = none) (herror : n.walletError = none) : WalletTold n [] where
  balance := hbalance
  walletError error := by
    rw [herror]
    exact iff_of_false (fun h => by cases h) not_lastFailure_nil

/-- An entry that has nothing to do with the wallet. -/
theorem keep {entry : Entry} {recent : List Entry} (h : WalletTold n recent)
    (hwallet : entry.wallet? = none) (hfailure : entry.walletFailure? = none)
    (hdecides : entry.decidesWallet = false) (hbalance : n'.balance = n.balance)
    (herror : n'.walletError = n.walletError) : WalletTold n' (entry :: recent) where
  balance := by rw [List.findSome?_cons, hwallet, hbalance]; exact h.balance
  walletError error := by
    rw [herror, lastFailure_cons_of_not_decides hdecides hfailure]
    exact h.walletError error

/-- An entry that decides what error there is of the wallet. -/
theorem decided {entry : Entry} {recent : List Entry} (h : WalletTold n recent)
    (hdecides : entry.decidesWallet = true) (herror : n'.walletError = entry.walletFailure?)
    (hbalance : n'.balance = (entry.wallet?.map Wallet.current).or n.balance) :
    WalletTold n' (entry :: recent) where
  balance := by
    rw [hbalance, List.findSome?_cons, h.balance]
    cases entry.wallet? <;> rfl
  walletError error := by rw [herror, lastFailure_cons_of_decides hdecides]

/-- Every rule keeps to what the entries tell. -/
theorem transition (h : WalletTold n (thisEpoch past)) (hn : Transition n event response n') :
    WalletTold n' (thisEpoch (⟨event, response⟩ :: past)) := by
  cases hn with
  | start | startBlank | startUnfit | startSearch | close => exact blank rfl rfl
  | refreshWallet => exact h.decided rfl rfl rfl
  | walletKnown epoch wallet => exact h.decided rfl rfl rfl
  | walletFailed epoch error => exact h.decided rfl rfl rfl
  | walletStale epoch result =>
    exact h.keep (by cases result <;> rfl) (by cases result <;> rfl) rfl rfl rfl
  | refused move error => exact h.keep rfl rfl (by cases move <;> rfl) rfl rfl
  | _ => exact h.keep rfl rfl rfl rfl rfl

end WalletTold

theorem walletTold_history (past : List Event) :
    WalletTold (after new past) (thisEpoch (history new past)) := by
  induction past with
  | nil => exact .blank rfl rfl
  | cons event past ih => exact ih.transition (transition_perform _ event)

/-! ## All runs -/

/-- In every run in which no request for the wallet is answered twice, whenever and in whatever
order the answers come: no epoch has two requests that are unanswered, and the present one has one
exactly while another is refused as busy; the balance is that of the last wallet taken in the epoch;
the wallet's error is that of the last answer taken in the epoch, if this failed and the wallet was
not asked for since; and the answers to requests of earlier epochs change nothing. -/
theorem newest_balance (past : List Event) (h : AnsweredOnce (history new past)) :
    (∀ epoch, (unanswered (history new past)).count epoch ≤ 1) ∧
    ((unanswered (history new past)).count (after new past).epoch = 1 ↔
      response new past (.move .refreshWallet) = .refused (.busy "a wallet fetch")) ∧
    (after new past).balance =
      ((thisEpoch (history new past)).findSome? Entry.wallet?).map Wallet.current ∧
    (∀ error, (after new past).walletError = some error ↔
      LastFailure (thisEpoch (history new past)) error) ∧
    ∀ epoch result, epoch < (after new past).epoch →
      response new past (.wallet epoch result) = .received .stale ∧
        after new (.wallet epoch result :: past) = after new past := by
  have htold := walletTold_history past
  refine ⟨count_unanswered_le h, ?_, htold.balance, htold.walletError, fun epoch result hlt => ?_⟩
  · have hbusy : response new past (.move .refreshWallet) = .refused (.busy "a wallet fetch") ↔
        (after new past).walletPending = true := (Coherent.new.after past).refreshWallet_busy_iff
    rw [hbusy, (walletAsked_history h).count]
    cases (after new past).walletPending <;> decide
  · have hstale : (after new past).walletLoaded epoch result = (after new past, .stale) := by
      unfold walletLoaded
      rw [if_pos (by simp [hlt.ne])]
    refine ⟨?_, congrArg Prod.fst hstale⟩
    show Response.received ((after new past).walletLoaded epoch result).2 = .received .stale
    rw [hstale]

/-- The wallet is asked for once before the negotiation is opened anew, and twice after, for the
first answer of the new epoch fails. The answer of the earlier epoch comes between. -/
def lateWallet : List Event :=
  [.wallet 2 (.ok ⟨none, ⟨0x4034000000000000⟩, .zero⟩),
    .wallet 1 (.ok ⟨none, ⟨0x407F400000000000⟩, .zero⟩),
    .move .refreshWallet,
    .wallet 2 (.error (.transport "timeout")),
    .start (some "abc123"),
    .start none]

/-- The balance is the 20 of the new epoch, although the 500 of the earlier one was on its way, and
no request is unanswered. -/
theorem lateWallet_newest_balance :
    AnsweredOnce (history new lateWallet) ∧
      (unanswered (history new lateWallet)).count 2 = 0 ∧
      (after new lateWallet).balance = some ⟨0x4034000000000000⟩ ∧
      response new lateWallet (.wallet 1 (.error (.transport "timeout"))) = .received .stale := by
  have honce : AnsweredOnce (history new lateWallet) := by decide
  obtain ⟨-, -, hbalance, -, hearlier⟩ := newest_balance lateWallet honce
  refine ⟨honce, by decide, hbalance.trans (by decide), ?_⟩
  exact (hearlier 1 _ (by decide)).1

end FileMarket.Negotiation
