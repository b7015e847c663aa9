import FileMarket.Proofs.Negotiation.Purchase

/-!
# One purchase at a time

Between two purchases of one epoch lies the answer to the first. If that answer was a success, the
second one starts from a new search: the hash, the list of peers, the choice and the offer are all
made again (`Settled`, `no_double_purchase`).
-/

set_option autoImplicit false

namespace FileMarket.Negotiation

/-! ## The way to an offer -/

/-- The stages that lead to an offer. -/
inductive Milestone where
  | sought
  | listed
  | chosen
  | offered
deriving DecidableEq, Repr

/-- The stage that an entry reaches: a search that asks, a list of peers that is taken, a choice
that asks, or a record that is taken as the offer. -/
def Entry.milestone? : Entry → Option Milestone
  | ⟨.move (.submit _), .made _⟩ => some .sought
  | ⟨.answer _ (.providers (.ok _)), .received .accepted⟩ => some .listed
  | ⟨.move (.selectPeer _), .made _⟩ => some .chosen
  | ⟨.answer _ (.metadata (.ok _)), .received .accepted⟩ => some .offered
  | _ => none

/-- The stages that a part of a history reaches, the latest first. -/
def milestones (segment : List Entry) : List Milestone := segment.filterMap Entry.milestone?

/-- The stages between a completed purchase and a phase, the latest first. -/
def trail : Phase → List Milestone
  | .idle | .notFound | .complete => []
  | .searching => [.sought]
  | .peerList => [.listed, .sought]
  | .metadataLoading => [.chosen, .listed, .sought]
  | .confirming | .transferring | .failed => [.offered, .chosen, .listed, .sought]

/-- Since a completed purchase all stages were reached that lead to the phase, and to the phase
that a failed lookup goes back to. -/
structure Trailed (n : Negotiation) (segment : List Entry) : Prop where
  phase : (trail n.phase).Sublist (milestones segment)
  resume : n.phase = .searching → (trail n.resume).Sublist (milestones segment)

namespace Trailed

variable {n n' : Negotiation} {segment : List Entry}

/-- What was reached stays reached. -/
theorem cons (h : Trailed n segment) (entry : Entry) : Trailed n (entry :: segment) := by
  have hmilestones : (milestones segment).Sublist (milestones (entry :: segment)) :=
    (List.sublist_cons_self entry segment).filterMap _
  exact ⟨h.phase.trans hmilestones, fun hsearching => (h.resume hsearching).trans hmilestones⟩

theorem congr (h : Trailed n segment) (hphase : n'.phase = n.phase)
    (hresume : n'.resume = n.resume) : Trailed n' segment where
  phase := by rw [hphase]; exact h.phase
  resume hsearching := by rw [hresume]; exact h.resume (hphase ▸ hsearching)

/-- A phase other than the search, with no longer trail. -/
theorem shorten (h : Trailed n segment) (hphase : n'.phase ≠ .searching)
    (htrail : (trail n'.phase).Sublist (trail n.phase)) : Trailed n' segment where
  phase := htrail.trans h.phase
  resume hsearching := absurd hsearching hphase

/-- A phase other than the search, by one more stage. -/
theorem reach (h : Trailed n segment) {entry : Entry} {milestone : Milestone}
    (hentry : entry.milestone? = some milestone) (hphase : n'.phase ≠ .searching)
    (htrail : trail n'.phase = milestone :: (trail n.phase)) : Trailed n' (entry :: segment) where
  phase := by
    rw [htrail, milestones, List.filterMap_cons_some hentry]
    exact h.phase.cons_cons milestone
  resume hsearching := absurd hsearching hphase

end Trailed

/-- An epoch ends only by opening or closing. -/
theorem Transition.epoch_le {n n' : Negotiation} {event : Event} {response : Response}
    (h : Transition n event response n') : n.epoch ≤ n'.epoch := by
  cases h <;> first | exact Nat.le_refl _ | exact Nat.le_succ _

/-- Every rule within an epoch keeps the trail. -/
theorem Trailed.transition {n n' : Negotiation} {event : Event} {response : Response}
    {segment : List Entry} (h : Trailed n segment) (hn : Transition n event response n')
    (hepoch : n'.epoch = n.epoch) : Trailed n' (⟨event, response⟩ :: segment) := by
  cases hn with
  | start | startBlank | startUnfit | startSearch | close =>
    exact absurd hepoch (Nat.succ_ne_self n.epoch)
  | refused | submitBlank | confirmRefused | refreshWallet | stale | walletStale | walletKnown
  | walletFailed =>
    apply Trailed.cons
    exact h.congr rfl rfl
  | submitUnfit | unlisted | transferred =>
    apply Trailed.cons
    exact h.shorten (fun h => Phase.noConfusion h) (List.nil_sublist _)
  | submitSearch =>
    have hsought : [Milestone.sought].Sublist (.sought :: milestones segment) :=
      (List.nil_sublist (milestones segment)).cons_cons .sought
    exact ⟨hsought, fun _ => List.nil_sublist _⟩
  | refreshPeers isOpen listed =>
    have hlisted := h.phase
    rw [listed] at hlisted
    apply Trailed.cons
    refine ⟨?_, fun _ => hlisted⟩
    exact (List.sublist_cons_self Milestone.listed [.sought]).trans hlisted
  | selectPeer peer isOpen listed known =>
    rcases listed with listed | listed
    · exact h.reach rfl (fun h => Phase.noConfusion h) (by rw [listed]; rfl)
    · apply Trailed.cons
      exact h.shorten (fun h => Phase.noConfusion h) (by rw [listed])
  | decline offered =>
    apply Trailed.cons
    refine h.shorten (fun h => Phase.noConfusion h) ?_
    rw [offered]
    exact (List.sublist_cons_self _ _).trans (List.sublist_cons_self _ _)
  | confirm record peer gate isOpen offered =>
    apply Trailed.cons
    refine h.shorten (fun h => Phase.noConfusion h) ?_
    rcases offered with offered | offered <;> rw [offered] <;> exact List.Sublist.refl _
  | listed ticket ids awaited =>
    have hphase := phase_of_awaits awaited
    exact h.reach rfl (fun h => Phase.noConfusion h) (by rw [hphase]; rfl)
  | searchFailed ticket error awaited =>
    -- This is what the second field of the trail is for.
    have hphase := phase_of_awaits awaited
    apply Trailed.cons
    exact ⟨h.resume hphase, fun _ => h.resume hphase⟩
  | offered ticket record awaited =>
    have hphase := phase_of_awaits awaited
    exact h.reach rfl (fun h => Phase.noConfusion h) (by rw [hphase]; rfl)
  | metadataFailed ticket error awaited =>
    have hphase := phase_of_awaits awaited
    apply Trailed.cons
    refine h.shorten (fun h => Phase.noConfusion h) ?_
    rw [hphase]
    exact List.sublist_cons_self _ _
  | transferFailed ticket error awaited =>
    have hphase := phase_of_awaits awaited
    apply Trailed.cons
    exact h.shorten (fun h => Phase.noConfusion h) (by rw [hphase]; exact .refl _)

/-! ## After a purchase -/

/-- What became of a purchase: its answer is still waited for, or it was taken, and if it was a
success, all that leads to the phase was done since then. -/
def Settled (ticket : Ticket) (n : Negotiation) (segment : List Entry) : Prop :=
  n.awaits .transferring ticket = true ∨
    ∃ result late early,
      segment = late ++ ⟨.answer ticket (.transfer result), .received .accepted⟩ :: early ∧
        ((∃ saved, result = .ok saved) → Trailed n late)

/-- Within an epoch, only its answer ends the wait for the end of a transfer. -/
theorem Transition.of_transferring {n n' : Negotiation} {event : Event} {response : Response}
    {ticket : Ticket} (h : Transition n event response n')
    (awaited : n.awaits .transferring ticket = true) (hepoch : n'.epoch = n.epoch) :
    n'.awaits .transferring ticket = true ∨ ∃ result,
      event = .answer ticket (.transfer result) ∧ response = .received .accepted ∧
        ((∃ saved, result = .ok saved) → n'.phase = .complete) := by
  obtain ⟨hopen, hphase, hpending⟩ := (awaits_eq_true_iff n _ _).1 awaited
  -- Moves need another phase, or leave phase and ticket alone; so do all other answers.
  cases h with
  | start | startBlank | startUnfit | startSearch | close =>
    exact absurd hepoch (Nat.succ_ne_self n.epoch)
  | refused | submitBlank | refreshWallet | stale | walletStale | walletKnown | walletFailed =>
    exact Or.inl awaited
  | submitUnfit _ _ idle | submitSearch _ _ idle =>
    rw [hphase] at idle
    cases idle
  | refreshPeers _ listed =>
    rw [hphase] at listed
    cases listed
  | selectPeer _ _ listed =>
    rw [hphase] at listed
    rcases listed with listed | listed <;> cases listed
  | decline offered =>
    rw [hphase] at offered
    cases offered
  | confirmRefused _ _ _ offered | confirm _ _ _ _ offered =>
    rw [hphase] at offered
    rcases offered with offered | offered <;> cases offered
  | listed _ _ h | unlisted _ _ h | searchFailed _ _ h | offered _ _ h | metadataFailed _ _ h =>
    have hother := phase_of_awaits h
    rw [hphase] at hother
    cases hother
  | transferred ticket' saved h =>
    obtain ⟨-, -, hsame⟩ := (awaits_eq_true_iff n _ _).1 h
    obtain rfl := Option.some.inj (hpending.symm.trans hsame)
    exact Or.inr ⟨.ok saved, rfl, rfl, fun _ => rfl⟩
  | transferFailed ticket' error h =>
    obtain ⟨-, -, hsame⟩ := (awaits_eq_true_iff n _ _).1 h
    obtain rfl := Option.some.inj (hpending.symm.trans hsame)
    exact Or.inr ⟨.error error, rfl, rfl, fun ⟨saved, hsaved⟩ => by cases hsaved⟩

/-- Every rule within an epoch keeps account of a purchase. -/
theorem Settled.transition {n n' : Negotiation} {event : Event} {response : Response}
    {ticket : Ticket} {segment : List Entry} (h : Settled ticket n segment)
    (hn : Transition n event response n') (hepoch : n'.epoch = n.epoch) :
    Settled ticket n' (⟨event, response⟩ :: segment) := by
  rcases h with awaited | ⟨result, late, early, rfl, htrailed⟩
  · rcases hn.of_transferring awaited hepoch with awaited | ⟨result, rfl, rfl, hcomplete⟩
    · exact Or.inl awaited
    · refine Or.inr ⟨result, [], segment, rfl, fun hsaved => ?_⟩
      have hphase := hcomplete hsaved
      exact ⟨by rw [hphase]; exact List.nil_sublist _, fun h => by rw [hphase] at h; cases h⟩
  · exact Or.inr ⟨result, _ :: late, early, rfl, fun hsaved =>
      (htrailed hsaved).transition hn hepoch⟩

theorem epoch_le_after (n : Negotiation) (past : List Event) : n.epoch ≤ (after n past).epoch := by
  induction past with
  | nil => exact Nat.le_refl _
  | cons event past ih => exact ih.trans (transition_perform (after n past) event).epoch_le

/-- A purchase is accounted for as long as its epoch lasts. -/
theorem settled_after {early : List Event} {first : Event} {ticket : Ticket} {price : Binary64}
    {record : FileRecord}
    (hfirst : .download ticket price record ∈ (response new early first).requests)
    (mid : List Event) (hepoch : (after new (mid ++ first :: early)).epoch = ticket.epoch) :
    Settled ticket (after new (mid ++ first :: early))
      (history (after new (first :: early)) mid) := by
  have hrule := (transition_perform (after new early) first).download hfirst
  obtain ⟨-, -, -, -, hticket, -, hopen, hsame, hphase, hpending⟩ := hrule
  have hstart : (after new (first :: early)).epoch = ticket.epoch := by
    rw [hticket]
    exact hsame
  rw [after_append] at hepoch ⊢
  generalize hn : after new (first :: early) = n at hepoch hstart ⊢
  -- Epochs only grow, so one that is the same at both ends is the same throughout.
  induction mid with
  | nil =>
    subst hn
    exact Or.inl ((awaits_eq_true_iff _ _ _).2 ⟨hopen, hphase, hpending⟩)
  | cons event mid ih =>
    have hrule := transition_perform (after n mid) event
    have hprevious : (after n mid).epoch = ticket.epoch :=
      le_antisymm (hrule.epoch_le.trans_eq hepoch) (hstart ▸ epoch_le_after n mid)
    exact (ih hprevious).transition hrule (hepoch.trans hprevious.symm)

/-! ## No double purchase -/

/-- The transfers of an epoch whose end was not taken. -/
def openTransfers (epoch : Nat) (past : List Entry) : List (Query × Ticket) :=
  (issued past).filter fun question =>
    question.1 = .transfer ∧ question.2.epoch = epoch ∧ question.2 ∉ accepted past

/-- An open transfer is the one that is waited for. -/
theorem pending_of_mem_openTransfers {past : List Event} {question : Query × Ticket}
    (h : question ∈ openTransfers (after new past).epoch (history new past)) :
    question.1 = .transfer ∧ (after new past).pending = some question.2 := by
  obtain ⟨query, ticket⟩ := question
  simp only [openTransfers, List.mem_filter, decide_eq_true_eq] at h
  obtain ⟨hissued, rfl, hepoch, haccepted⟩ := h
  obtain ⟨mid, event, early, rfl, request, hrequest, hticket⟩ := exists_of_mem_issued hissued
  refine ⟨rfl, ?_⟩
  cases request with
  | wallet epoch => cases hticket
  | providers ticket' => cases hticket
  | metadata ticket' => cases hticket
  | download ticket' price record =>
    -- Were it settled by an answer, its ticket would be among those taken.
    cases hticket
    rcases settled_after hrequest mid hepoch.symm with awaited | ⟨result, late, before, hmid, -⟩
    · exact ((awaits_eq_true_iff _ _ _).1 awaited).2.2
    · refine absurd ?_ haccepted
      rw [history_append, hmid]
      simp [accepted, Entry.accepted?]

theorem length_openTransfers_le_one (past : List Event) :
    (openTransfers (after new past).epoch (history new past)).length ≤ 1 := by
  have hnodup : (openTransfers (after new past).epoch (history new past)).Nodup :=
    (List.Nodup.of_map _ (ticketedBy_history past).tickets_nodup).filter _
  have hpending : ∀ question ∈ openTransfers (after new past).epoch (history new past),
      question.1 = .transfer ∧ (after new past).pending = some question.2 :=
    fun _ => pending_of_mem_openTransfers
  cases hopen : openTransfers (after new past).epoch (history new past) with
  | nil => exact Nat.zero_le 1
  | cons a rest =>
    rw [hopen] at hnodup hpending
    cases rest with
    | nil => exact Nat.le_refl 1
    | cons b rest =>
      obtain ⟨ha, haPending⟩ := hpending a (by simp)
      obtain ⟨hb, hbPending⟩ := hpending b (by simp)
      have hab : a = b :=
        Prod.ext (ha.trans hb.symm) (Option.some.inj (haPending.symm.trans hbPending))
      simp [hab] at hnodup

/-- Between two purchases of one epoch the end of the first was taken, and if it was a success,
then a search, a list of peers, a choice and an offer followed it before the second. So at any
moment at most one purchase of the epoch has no answer yet. -/
theorem no_double_purchase :
    (∀ (early mid : List Event) (first second : Event) (t₁ t₂ : Ticket) (p₁ p₂ : Binary64)
        (r₁ r₂ : FileRecord),
      .download t₁ p₁ r₁ ∈ (response new early first).requests →
      .download t₂ p₂ r₂ ∈ (response new (mid ++ first :: early) second).requests →
      t₁.epoch = t₂.epoch →
      ∃ result late before,
        history (after new (first :: early)) mid =
          late ++ ⟨.answer t₁ (.transfer result), .received .accepted⟩ :: before ∧
        ((∃ saved, result = .ok saved) →
          [.offered, .chosen, .listed, .sought].Sublist (milestones late))) ∧
    ∀ past : List Event,
      (openTransfers (after new past).epoch (history new past)).length ≤ 1 := by
  refine ⟨fun early mid first second t₁ t₂ p₁ p₂ r₁ r₂ h₁ h₂ hepoch => ?_, fun past => ?_⟩
  · obtain ⟨-, hphase, -, -, hticket, -⟩ :=
      (transition_perform (after new (mid ++ first :: early)) second).download h₂
    have hsame : (after new (mid ++ first :: early)).epoch = t₁.epoch := by rw [hepoch, hticket]
    rcases settled_after h₁ mid hsame with awaited | ⟨result, late, before, hmid, htrailed⟩
    · -- A purchase is not confirmed while another one is under way.
      rw [phase_of_awaits awaited] at hphase
      rcases hphase with hphase | hphase <;> cases hphase
    · refine ⟨result, late, before, hmid, fun hsaved => ?_⟩
      have htrail := (htrailed hsaved).phase
      rcases hphase with hphase | hphase <;> rwa [hphase] at htrail
  · exact length_openTransfers_le_one past

/-- What brings a second offer after the song of `songRun` was bought. -/
def songAgain : List Event :=
  [.answer ⟨1, 5, "abc123", some "p2"⟩ (.metadata (.ok song)),
    .move (.selectPeer "p2"),
    .answer ⟨1, 4, "abc123", none⟩ (.providers (.ok ["p2"])),
    .move (.submit "abc123"),
    .answer ⟨1, 3, "abc123", some "p1"⟩ (.transfer (.ok ⟨"song.mp3", song.hashed "abc123"⟩))]

/-- The song of `songRun` is bought, found again, and bought again. -/
theorem song_bought_twice :
    (.download ⟨1, 3, "abc123", some "p1"⟩ ⟨0x4034000000000000⟩ (song.hashed "abc123") ∈
        (response new songRun (.move .confirm)).requests ∧
      .download ⟨1, 6, "abc123", some "p2"⟩ ⟨0x4034000000000000⟩ (song.hashed "abc123") ∈
        (response new (songAgain ++ .move .confirm :: songRun) (.move .confirm)).requests) ∧
    ∃ result late before,
      history (after new (.move .confirm :: songRun)) songAgain =
        late ++ ⟨.answer ⟨1, 3, "abc123", some "p1"⟩ (.transfer result), .received .accepted⟩ ::
          before ∧
      ((∃ saved, result = .ok saved) →
        [.offered, .chosen, .listed, .sought].Sublist (milestones late)) := by
  have hfirst : .download ⟨1, 3, "abc123", some "p1"⟩ ⟨0x4034000000000000⟩
      (song.hashed "abc123") ∈ (response new songRun (.move .confirm)).requests := by decide
  have hsecond : .download ⟨1, 6, "abc123", some "p2"⟩ ⟨0x4034000000000000⟩
      (song.hashed "abc123") ∈
        (response new (songAgain ++ .move .confirm :: songRun) (.move .confirm)).requests := by
    decide
  exact ⟨⟨hfirst, hsecond⟩,
    no_double_purchase.1 songRun songAgain _ _ _ _ _ _ _ _ hfirst hsecond rfl⟩

end FileMarket.Negotiation
