import FileMarket.Proofs.Negotiation.Transition
import Mathlib.Data.Prod.Lex

/-!
# Tickets

Which answers a negotiation takes. The question that is waited for is the last one asked with a
ticket since the negotiation was opened, for as long as no answer to it was taken
(`Ticketed.awaits_iff`). Tickets grow with every question, also across the epochs in which their
numbers start again, so none is issued or taken twice. `answer_accepted_iff` puts this together.
-/

set_option autoImplicit false

namespace FileMarket

/-- The place of a ticket among all tickets: by epoch, and by number within one epoch. -/
def Ticket.rank (ticket : Ticket) : Lex (Nat × Nat) := toLex (ticket.epoch, ticket.seq)

theorem Ticket.rank_lt_iff (s t : Ticket) :
    s.rank < t.rank ↔ s.epoch < t.epoch ∨ s.epoch = t.epoch ∧ s.seq < t.seq :=
  Prod.Lex.toLex_lt_toLex

namespace Negotiation

/-- What the tickets issued and taken so far have to do with the negotiation: `recent` are the
questions since it was opened, `asked` all questions, `taken` the tickets of the answers taken. -/
structure Ticketed (n : Negotiation) (recent asked : List (Query × Ticket))
    (taken : List Ticket) : Prop where
  awaits_iff : ∀ query ticket, n.awaits query.phase ticket = true ↔
    n.isOpen = true ∧ recent.head? = some (query, ticket) ∧ ticket ∉ taken
  recent_subset : recent ⊆ asked
  /-- No ticket is ahead of the counters that the next one is made from. -/
  asked_le : ∀ question ∈ asked, question.2.epoch < n.epoch ∨
    question.2.epoch = n.epoch ∧ question.2.seq ≤ n.seq
  asked_rank : asked.Pairwise fun late early => early.2.rank < late.2.rank
  taken_asked : ∀ ticket ∈ taken, ∃ query, (query, ticket) ∈ asked
  taken_nodup : taken.Nodup

namespace Ticketed

variable {n n' : Negotiation} {recent asked : List (Query × Ticket)} {taken : List Ticket}

theorem awaits_eq_false_of_idle (idle : n.phase.isBusy = false) (query : Query)
    (ticket : Ticket) : n.awaits query.phase ticket = false := by
  rw [← Bool.not_eq_true, awaits_eq_true_iff]
  rintro ⟨-, hphase, -⟩
  rw [hphase, query.phase_isBusy] at idle
  cases idle

/-- A step that asks nothing and takes no answer changes nothing about tickets. -/
theorem congr (h : Ticketed n recent asked taken) (hepoch : n'.epoch = n.epoch)
    (hseq : n'.seq = n.seq) (hopen : n'.isOpen = n.isOpen)
    (hawaits : ∀ query ticket, n'.awaits (Query.phase query) ticket =
      n.awaits (Query.phase query) ticket) :
    Ticketed n' recent asked taken where
  awaits_iff query ticket := by rw [hawaits, hopen]; exact h.awaits_iff query ticket
  recent_subset := h.recent_subset
  asked_le := by rw [hepoch, hseq]; exact h.asked_le
  asked_rank := h.asked_rank
  taken_asked := h.taken_asked
  taken_nodup := h.taken_nodup

/-- Before the next ticket was issued, it was not among those taken. -/
theorem not_mem_taken (h : Ticketed n recent asked taken) {ticket : Ticket}
    (hepoch : ticket.epoch = n.epoch) (hseq : ticket.seq = n.seq + 1) : ticket ∉ taken := by
  intro hmem
  obtain ⟨query, hasked⟩ := h.taken_asked ticket hmem
  rcases h.asked_le _ hasked with hlt | ⟨-, hle⟩
  · simp only [hepoch, lt_irrefl] at hlt
  · simp only [hseq] at hle
    omega

/-- Asking a question with the next ticket. -/
theorem ask (h : Ticketed n recent asked taken) (query : Query) (ticket : Ticket)
    (hticket : ticket.epoch = n.epoch ∧ ticket.seq = n.seq + 1) (hepoch : n'.epoch = n.epoch)
    (hseq : n'.seq = n.seq + 1) (hopen : n'.isOpen = true) (hphase : n'.phase = query.phase)
    (hpending : n'.pending = some ticket) :
    Ticketed n' ((query, ticket) :: recent) ((query, ticket) :: asked) taken where
  awaits_iff query' ticket' := by
    -- The new question takes the place of any that was waited for.
    have hfresh := h.not_mem_taken hticket.1 hticket.2
    rw [awaits_eq_true_iff, hopen, hphase, hpending]
    simp only [true_and, List.head?_cons, Option.some.injEq, Prod.mk.injEq]
    constructor
    · rintro ⟨hquery, rfl⟩
      exact ⟨⟨Query.phase_injective hquery, rfl⟩, hfresh⟩
    · rintro ⟨⟨rfl, rfl⟩, -⟩
      exact ⟨rfl, rfl⟩
  recent_subset := List.cons_subset_cons _ h.recent_subset
  asked_le := by
    intro question hmem
    rw [hepoch, hseq]
    rcases List.mem_cons.1 hmem with rfl | hmem
    · exact Or.inr ⟨hticket.1, hticket.2.le⟩
    · rcases h.asked_le question hmem with hlt | ⟨heq, hle⟩
      · exact Or.inl hlt
      · exact Or.inr ⟨heq, by omega⟩
  asked_rank := by
    refine List.pairwise_cons.2 ⟨fun question hmem => ?_, h.asked_rank⟩
    rw [Ticket.rank_lt_iff, hticket.1, hticket.2]
    rcases h.asked_le question hmem with hlt | ⟨heq, hle⟩
    · exact Or.inl hlt
    · exact Or.inr ⟨heq, by omega⟩
  taken_asked ticket' hmem := by
    obtain ⟨query', hasked⟩ := h.taken_asked ticket' hmem
    exact ⟨query', List.mem_cons_of_mem _ hasked⟩
  taken_nodup := h.taken_nodup

/-- Taking the answer that is waited for. Nothing is waited for afterwards. -/
theorem take (h : Ticketed n recent asked taken) (query : Query) (ticket : Ticket)
    (awaited : n.awaits query.phase ticket = true) (hepoch : n'.epoch = n.epoch)
    (hseq : n'.seq = n.seq) (hpending : n'.pending = none) :
    Ticketed n' recent asked (ticket :: taken) where
  awaits_iff query' ticket' := by
    obtain ⟨-, hhead, -⟩ := (h.awaits_iff query ticket).1 awaited
    rw [awaits_eq_true_iff, hpending, hhead]
    constructor
    · rintro ⟨-, -, hnone⟩
      cases hnone
    · rintro ⟨-, hsome, hmem⟩
      cases hsome
      exact absurd List.mem_cons_self hmem
  recent_subset := h.recent_subset
  asked_le := by rw [hepoch, hseq]; exact h.asked_le
  asked_rank := h.asked_rank
  taken_asked ticket' hmem := by
    rcases List.mem_cons.1 hmem with rfl | hmem
    · obtain ⟨-, hhead, -⟩ := (h.awaits_iff query ticket').1 awaited
      exact ⟨query, h.recent_subset (List.mem_of_mem_head? hhead)⟩
    · exact h.taken_asked ticket' hmem
  taken_nodup := by
    obtain ⟨-, -, hmem⟩ := (h.awaits_iff query ticket).1 awaited
    exact List.nodup_cons.2 ⟨hmem, h.taken_nodup⟩

/-- A new epoch, in which nothing was asked yet if the negotiation is open. -/
theorem restart (h : Ticketed n recent asked taken) {recent' : List (Query × Ticket)}
    (hepoch : n'.epoch = n.epoch + 1) (hpending : n'.pending = none)
    (hsubset : recent' ⊆ asked) (hrecent : n'.isOpen = true → recent' = []) :
    Ticketed n' recent' asked taken where
  awaits_iff query ticket := by
    rw [awaits_eq_true_iff, hpending]
    constructor
    · rintro ⟨-, -, hnone⟩
      cases hnone
    · rintro ⟨hopen, hhead, -⟩
      rw [hrecent hopen] at hhead
      cases hhead
  recent_subset := hsubset
  asked_le question hmem := by
    rcases h.asked_le question hmem with hlt | ⟨heq, -⟩
    · exact Or.inl (by omega)
    · exact Or.inl (by omega)
  asked_rank := h.asked_rank
  taken_asked := h.taken_asked
  taken_nodup := h.taken_nodup

/-- No ticket is issued twice. -/
theorem tickets_nodup (h : Ticketed n recent asked taken) : (asked.map (·.2)).Nodup :=
  List.pairwise_map.2 (h.asked_rank.imp fun hlt heq => by
    rw [heq] at hlt
    exact lt_irrefl _ hlt)

end Ticketed

/-- What the tickets of a history have to do with the negotiation it led to. -/
def TicketedBy (n : Negotiation) (past : List Entry) : Prop :=
  Ticketed n (issued (current past)) (issued past) (accepted past)

theorem issued_current_subset (past : List Entry) : issued (current past) ⊆ issued past := by
  induction past with
  | nil => exact List.Subset.refl _
  | cons entry past ih =>
    rw [issued_cons]
    cases hstart : entry.isStart with
    | true =>
      rw [current_cons_of_isStart hstart, issued_cons]
      exact List.append_subset.2 ⟨List.subset_append_left _ _, List.nil_subset _⟩
    | false =>
      rw [current_cons_of_not_isStart hstart, issued_cons]
      exact List.append_subset.2
        ⟨List.subset_append_left _ _, List.Subset.trans ih (List.subset_append_right _ _)⟩

theorem ticketedBy_new : TicketedBy new [] where
  awaits_iff query ticket := by simp [awaits, new, closed, current, issued]
  recent_subset := List.Subset.refl _
  asked_le question hmem := by cases hmem
  asked_rank := List.Pairwise.nil
  taken_asked ticket hmem := by cases hmem
  taken_nodup := List.nodup_nil

/-- Every rule keeps what tickets have to do with the negotiation. -/
theorem TicketedBy.transition {n n' : Negotiation} {event : Event} {response : Response}
    {past : List Entry} (h : TicketedBy n past) (hn : Transition n event response n') :
    TicketedBy n' (⟨event, response⟩ :: past) := by
  -- A rule begins a new epoch, asks a question, takes the answer that is waited for, or touches
  -- neither the tickets nor the wait.
  have hstart : ∀ m : Negotiation, m.epoch = n.epoch + 1 → m.pending = none →
      Ticketed m [] (issued past) (accepted past) := fun m hepoch hpending =>
    Ticketed.restart h hepoch hpending (List.nil_subset _) fun _ => rfl
  have hidle : ∀ m : Negotiation, m.epoch = n.epoch → m.seq = n.seq → m.isOpen = n.isOpen →
      m.phase.isBusy = false → n.phase.isBusy = false →
      Ticketed m (issued (current past)) (issued past) (accepted past) :=
    fun m hepoch hseq hopen hm hn => Ticketed.congr h hepoch hseq hopen fun query ticket => by
      rw [Ticketed.awaits_eq_false_of_idle hm, Ticketed.awaits_eq_false_of_idle hn]
  cases hn with
  | start => exact hstart _ rfl rfl
  | startBlank text blank => exact hstart _ rfl rfl
  | startUnfit text unfit => exact hstart _ rfl rfl
  | startSearch text fit =>
    exact (hstart (opened (n.epoch + 1)) rfl rfl).ask .providers _ ⟨rfl, rfl⟩ rfl rfl rfl rfl rfl
  | close =>
    -- What was asked in the epoch stays in its history, but nothing is waited for.
    exact Ticketed.restart h rfl rfl (issued_current_subset past) fun hopen => by cases hopen
  | refused move error => exact h
  | submitBlank text isOpen idle unoffered blank => exact Ticketed.congr h rfl rfl rfl fun _ _ => rfl
  | submitUnfit text isOpen idle unoffered unfit => exact hidle _ rfl rfl rfl rfl idle
  | submitSearch text isOpen idle unoffered fit =>
    exact Ticketed.ask h .providers _ ⟨rfl, rfl⟩ rfl rfl isOpen rfl rfl
  | refreshPeers isOpen listed =>
    exact Ticketed.ask h .providers _ ⟨rfl, rfl⟩ rfl rfl isOpen rfl rfl
  | selectPeer peer isOpen listed known =>
    exact Ticketed.ask h .metadata _ ⟨rfl, rfl⟩ rfl rfl isOpen rfl rfl
  | decline offered => exact hidle _ rfl rfl rfl rfl (by rw [offered]; rfl)
  | confirmRefused record error isOpen offered hrecord refused =>
    exact Ticketed.congr h rfl rfl rfl fun _ _ => rfl
  | confirm record peer gate isOpen offered hrecord hpeer passed =>
    exact Ticketed.ask h .transfer _ ⟨rfl, rfl⟩ rfl rfl isOpen rfl rfl
  | refreshWallet isOpen idle => exact Ticketed.congr h rfl rfl rfl fun _ _ => rfl
  | stale ticket answer unawaited => exact h
  | listed ticket ids awaited found => exact Ticketed.take h .providers _ awaited rfl rfl rfl
  | unlisted ticket ids awaited notFound => exact Ticketed.take h .providers _ awaited rfl rfl rfl
  | searchFailed ticket error awaited => exact Ticketed.take h .providers _ awaited rfl rfl rfl
  | offered ticket record awaited => exact Ticketed.take h .metadata _ awaited rfl rfl rfl
  | metadataFailed ticket error awaited => exact Ticketed.take h .metadata _ awaited rfl rfl rfl
  | transferred ticket saved awaited => exact Ticketed.take h .transfer _ awaited rfl rfl rfl
  | transferFailed ticket error awaited => exact Ticketed.take h .transfer _ awaited rfl rfl rfl
  | walletStale epoch result => exact h
  | walletKnown epoch wallet isOpen same => exact Ticketed.congr h rfl rfl rfl fun _ _ => rfl
  | walletFailed epoch error isOpen same => exact Ticketed.congr h rfl rfl rfl fun _ _ => rfl

theorem ticketedBy_history (past : List Event) :
    TicketedBy (after new past) (history new past) := by
  induction past with
  | nil => exact ticketedBy_new
  | cons event past ih => exact ih.transition (transition_perform _ event)

/-! ## Which answers are taken -/

/-- An answer is taken exactly if it is waited for. -/
theorem receive_accepted_iff (n : Negotiation) (ticket : Ticket) (answer : Answer) :
    (n.receive ticket answer).2 = .accepted ↔ n.awaits answer.query.phase ticket = true := by
  cases awaited : n.awaits answer.query.phase ticket with
  | false => simp [receive_of_not_awaits awaited]
  | true =>
    have hrule := transition_receive n ticket answer
    generalize n.receive ticket answer = result at hrule ⊢
    obtain ⟨n', reception⟩ := result
    cases hrule <;> simp_all

/-- An answer is taken if and only if the negotiation is open, its ticket is the last one issued
since it was opened, was issued for the same kind of question, and no answer with it was taken
before; every other answer is stale and changes nothing. Tickets are issued in strictly increasing
order of epoch and number, so none is issued or taken twice. -/
theorem answer_accepted_iff (past : List Event) :
    (∀ (ticket : Ticket) (answer : Answer),
      (response new past (.answer ticket answer) = .received .accepted ↔
        (after new past).isOpen = true ∧
          (issued (current (history new past))).head? = some (answer.query, ticket) ∧
          ticket ∉ accepted (history new past)) ∧
      (response new past (.answer ticket answer) ≠ .received .accepted →
        response new past (.answer ticket answer) = .received .stale ∧
          after new (.answer ticket answer :: past) = after new past)) ∧
    (issued (history new past)).Pairwise (fun late early => early.2.rank < late.2.rank) ∧
    ((issued (history new past)).map (·.2)).Nodup ∧
    (accepted (history new past)).Nodup := by
  have h := ticketedBy_history past
  have hresponse : ∀ ticket answer, response new past (.answer ticket answer) =
      .received ((after new past).receive ticket answer).2 := fun _ _ => rfl
  refine ⟨fun ticket answer => ⟨?_, fun hrejected => ?_⟩, h.asked_rank, h.tickets_nodup,
    h.taken_nodup⟩
  · rw [hresponse, Response.received.injEq, receive_accepted_iff]
    exact h.awaits_iff answer.query ticket
  · rw [hresponse, ne_eq, Response.received.injEq, receive_accepted_iff, Bool.not_eq_true]
      at hrejected
    have hstale := receive_of_not_awaits hrejected
    refine ⟨by rw [hresponse, hstale], ?_⟩
    show ((after new past).receive ticket answer).1 = after new past
    rw [hstale]

end Negotiation

end FileMarket
