import FileMarket.Proofs.Negotiation.Receipts
import FileMarket.Proofs.Negotiation.Tickets

/-!
# Refused moves

A move that is refused leaves the negotiation as it was, with three exceptions: a blank hash and an
offer that the balance gate refuses are remembered as the error, and a text that cannot be a hash
ends in the phase where nothing was found. `Refusal n move error n'` lists what a refusal can leave,
and every refused move of a run follows it (`refused_intact`). None of them touches the tickets, so
an answer that was waited for is still taken afterwards.
-/

set_option autoImplicit false

namespace FileMarket.Negotiation

open FileMarket.Text

/-! ## What a refusal leaves -/

/-- Whether a search may begin: the negotiation is open, no answer is waited for, and no offer is
shown. -/
def GivesWay (n : Negotiation) : Prop :=
  n.isOpen = true ∧ n.phase.isBusy = false ∧ n.phase ≠ .confirming

/-- Whether a refused move leaves a mark: a search where one may begin, and the confirmation of an
offer. -/
def Marks (n : Negotiation) : Move → Prop
  | .submit _ => n.GivesWay
  | .confirm => n.IsOffered
  | .refreshPeers | .selectPeer _ | .decline | .refreshWallet => False

/-- What a refused move leaves behind. -/
inductive Refusal (n : Negotiation) : Move → MarketError → Negotiation → Prop
  | untouched (move : Move) (error : MarketError) (unmarked : ¬ n.Marks move) :
      Refusal n move error n
  | blank (text : String) (error : MarketError) (free : n.GivesWay) (blank : trim text = "") :
      Refusal n (.submit text) error { n with error := some error }
  -- The text takes the place of the hash, and what was found for the old one is dropped.
  | unfit (text : String) (error : MarketError) (free : n.GivesWay) (nonblank : trim text ≠ "")
      (unfit : ∃ c ∈ (trim text).toList, c.isAlphanum = false) :
      Refusal n (.submit text) error
        { n with
          phase := .notFound
          hash := trim text
          providers := []
          chosen := none
          metadata := none
          saved := none
          error := some error }
  | gate (record : FileRecord) (error : MarketError) (offered : n.IsOffered)
      (hrecord : n.metadata = some record)
      (refused : BalanceGate.check n.balance record.price = .error error) :
      Refusal n .confirm error { n with error := some error }

/-! ## Every refused move follows it -/

section Refused

variable {n n' : Negotiation} {move : Move} {error : MarketError}

/-- A refused move that leaves no mark changes nothing. -/
theorem Transition.eq_of_refused (h : Transition n (.move move) (.refused error) n')
    (unmarked : ¬ n.Marks move) : n' = n := by
  cases h with
  | refused => rfl
  | submitBlank text isOpen idle unoffered blank => exact absurd ⟨isOpen, idle, unoffered⟩ unmarked
  | submitUnfit text isOpen idle unoffered unfit => exact absurd ⟨isOpen, idle, unoffered⟩ unmarked
  | confirmRefused record error isOpen offered hrecord refused => exact absurd offered unmarked

/-- A search is refused where one may begin only because of its text. -/
theorem refusal_submit (free : n.GivesWay) {text : String}
    (h : (n.submit text).2 = .error error) :
    Refusal n (.submit text) error (n.submit text).1 := by
  rw [submit_of_idle free.1 free.2.1 free.2.2] at h ⊢
  by_cases blank : trim text = ""
  · rw [if_pos blank] at h ⊢
    obtain rfl := Except.error.inj h
    exact .blank text blankHash free blank
  · rw [if_neg blank] at h ⊢
    by_cases fit : (trim text).toList.all Char.isAlphanum
    · rw [if_pos fit] at h
      cases h
    · rw [if_neg fit] at h ⊢
      obtain rfl := Except.error.inj h
      have unfit : ∃ c ∈ (trim text).toList, c.isAlphanum = false := by
        simpa [List.all_eq_true] using fit
      exact .unfit text noProviders free blank unfit

/-- An offer is refused only by the balance gate. -/
theorem Coherent.refusal_confirm (hn : Coherent n) (offered : n.IsOffered)
    (h : n.confirm.2 = .error error) : Refusal n .confirm error n.confirm.1 := by
  obtain ⟨record, peer, isOpen, hrecord, hpeer⟩ := hn.exists_offer offered
  have hgate := (confirm_eq_error_iff isOpen offered hrecord hpeer).1 h
  rw [confirm_of_offered isOpen offered hrecord hpeer, hgate]
  exact .gate record error offered hrecord hgate

/-- The response to a step says whether it was refused. -/
theorem error_of_respond {step : Stepped} (h : (respond step).2 = .refused error) :
    step.2 = .error error ∧ (respond step).1 = step.1 := by
  obtain ⟨n, error' | request⟩ := step
  · cases h
    exact ⟨rfl, rfl⟩
  · cases h

theorem Coherent.refusal_make (hn : Coherent n) (h : (n.make move).2 = .refused error) :
    Refusal n move error (n.make move).1 := by
  by_cases hmarks : n.Marks move
  · cases move with
    | submit text =>
      obtain ⟨herror, hstate⟩ := error_of_respond h
      exact hstate ▸ refusal_submit hmarks herror
    | confirm =>
      obtain ⟨herror, hstate⟩ := error_of_respond h
      exact hstate ▸ hn.refusal_confirm hmarks herror
    | refreshPeers | selectPeer | decline | refreshWallet => exact hmarks.elim
  · have hrule := transition_perform n (.move move)
    rw [show (n.perform (.move move)).2 = .refused error from h] at hrule
    have hsame : (n.make move).1 = n := hrule.eq_of_refused hmarks
    rw [hsame]
    exact .untouched move error hmarks

end Refused

/-! ## What is waited for -/

namespace Refusal

variable {n n' : Negotiation} {move : Move} {error : MarketError}

/-- Nothing that tickets are made from or told by is touched. -/
theorem tickets (h : Refusal n move error n') :
    n'.isOpen = n.isOpen ∧ n'.epoch = n.epoch ∧ n'.seq = n.seq ∧ n'.pending = n.pending := by
  cases h <;> exact ⟨rfl, rfl, rfl, rfl⟩

/-- An answer is waited for afterwards if it was before. -/
theorem awaits (h : Refusal n move error n') (query : Query) (ticket : Ticket) :
    n'.awaits query.phase ticket = n.awaits query.phase ticket := by
  cases h with
  | untouched | blank | gate => rfl
  | unfit text error free =>
    -- No answer is waited for while a search may begin, nor where nothing was found.
    rw [Ticketed.awaits_eq_false_of_idle free.2.1]
    exact Ticketed.awaits_eq_false_of_idle rfl query ticket

end Refusal

theorem receive_reception (n : Negotiation) (ticket : Ticket) (answer : Answer) :
    (n.receive ticket answer).2 =
      if n.awaits answer.query.phase ticket then .accepted else .stale := by
  split
  · rename_i awaited
    exact (receive_accepted_iff n ticket answer).2 awaited
  · rename_i unawaited
    rw [receive_of_not_awaits (Bool.eq_false_iff.2 unawaited)]

theorem walletLoaded_reception (n : Negotiation) (epoch : Nat) (result : Outcome Wallet) :
    (n.walletLoaded epoch result).2 =
      if n.isOpen = true ∧ epoch = n.epoch then .accepted else .stale := by
  unfold walletLoaded
  cases n.isOpen with
  | false => simp
  | true =>
    by_cases hepoch : epoch = n.epoch
    · cases result <;> simp [hepoch]
    · simp [hepoch]

/-! ## All runs -/

/-- In every run, open or closed, a refused move leaves the negotiation as it was, but for a blank
hash and an offer refused by the balance gate, of which the error remains, and for a text that is no
hash, which is looked up in vain. No ticket is issued, and every answer and every wallet is received
afterwards as it would have been before. -/
theorem refused_intact (past : List Event) (move : Move) (error : MarketError)
    (h : response new past (.move move) = .refused error) :
    Refusal (after new past) move error (after new (.move move :: past)) ∧
      (after new (.move move :: past)).seq = (after new past).seq ∧
      (after new (.move move :: past)).pending = (after new past).pending ∧
      issued (history new (.move move :: past)) = issued (history new past) ∧
      (∀ ticket answer, response new (.move move :: past) (.answer ticket answer) =
        response new past (.answer ticket answer)) ∧
      ∀ epoch result, response new (.move move :: past) (.wallet epoch result) =
        response new past (.wallet epoch result) := by
  have hrefusal : Refusal (after new past) move error (after new (.move move :: past)) :=
    (Coherent.new.after past).refusal_make h
  obtain ⟨hopen, hepoch, hseq, hpending⟩ := hrefusal.tickets
  refine ⟨hrefusal, hseq, hpending, ?_, fun ticket answer => ?_, fun epoch result => ?_⟩
  · rw [history, issued_cons, h]
    rfl
  · show Response.received ((after new (.move move :: past)).receive ticket answer).2 =
      .received ((after new past).receive ticket answer).2
    rw [receive_reception, receive_reception, hrefusal.awaits]
  · show Response.received ((after new (.move move :: past)).walletLoaded epoch result).2 =
      .received ((after new past).walletLoaded epoch result).2
    rw [walletLoaded_reception, walletLoaded_reception, hopen, hepoch]

/-- A second search is refused while the first is under way, whose answer is then taken. -/
theorem search_refused_intact :
    response new [.start (some "abc123")] (.move (.submit "f00d")) = .refused (.busy "a search") ∧
      response new [.move (.submit "f00d"), .start (some "abc123")]
        (.answer ⟨1, 1, "abc123", none⟩ (.providers (.ok ["p1"]))) = .received .accepted := by
  have hrefused : response new [.start (some "abc123")] (.move (.submit "f00d")) =
      .refused (.busy "a search") := by decide
  obtain ⟨-, -, -, -, hanswers, -⟩ := refused_intact [.start (some "abc123")] _ _ hrefused
  refine ⟨hrefused, (hanswers _ _).trans ?_⟩
  decide

end FileMarket.Negotiation
