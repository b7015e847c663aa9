import FileMarket.Negotiation.Answer
import Mathlib.Tactic

/-!
# Histories of a negotiation

Everything that happens to a negotiation is an event: it is opened or closed, the user makes a
move, or an answer of the node is offered to it. `perform` is what one event does to a negotiation,
`after` what a run of events does, and `history` is the record of a run, each event with the
response it got. Runs and histories have the latest event first.
-/

set_option autoImplicit false

namespace FileMarket

open FileMarket.Text

/-- The questions that are asked with a ticket. -/
inductive Query where
  | providers
  | metadata
  | transfer
deriving DecidableEq, Repr

/-- The phase that waits for the answer to a question. -/
def Query.phase : Query → Phase
  | .providers => .searching
  | .metadata => .metadataLoading
  | .transfer => .transferring

theorem Query.phase_isBusy (q : Query) : q.phase.isBusy = true := by
  cases q <;> rfl

theorem Query.phase_injective {q r : Query} (h : q.phase = r.phase) : q = r := by
  cases q <;> cases r <;> simp_all [Query.phase]

/-- The question of a request, and the ticket it is asked with. The wallet is asked for without
one. -/
def Request.ticketed? : Request → Option (Query × Ticket)
  | .wallet _ => none
  | .providers ticket => some (.providers, ticket)
  | .metadata ticket => some (.metadata, ticket)
  | .download ticket _ _ => some (.transfer, ticket)

/-- What the node says to a question that was asked with a ticket. -/
inductive Answer where
  | providers (result : Outcome (List String))
  | metadata (result : Outcome FileRecord)
  | transfer (result : Outcome SavedFile)

/-- The question that an answer is about. -/
def Answer.query : Answer → Query
  | .providers _ => .providers
  | .metadata _ => .metadata
  | .transfer _ => .transfer

namespace Negotiation

/-! ## Events -/

/-- What the user can do in a negotiation that is open. Every move can be refused. -/
inductive Move where
  | submit (text : String)
  | refreshPeers
  | selectPeer (peer : String)
  | decline
  | confirm
  | refreshWallet
deriving DecidableEq, Repr

/-- What can happen to a negotiation. An answer is offered with any ticket whatever, at any time
and as often as one likes; so is a wallet, with any epoch. -/
inductive Event where
  | start (hash : Option String)
  | close
  | move (move : Move)
  | answer (ticket : Ticket) (answer : Answer)
  | wallet (epoch : Nat) (result : Outcome Wallet)

/-- Whether an event is something that the node says. -/
def Event.isReply : Event → Bool
  | .answer _ _ | .wallet _ _ => true
  | .start _ | .close | .move _ => false

/-- What an event gives back: the requests it makes, the reason of a refusal, or whether an answer
was taken. -/
inductive Response where
  | made (requests : List Request)
  | refused (error : MarketError)
  | received (reception : Reception)
deriving DecidableEq

/-- The requests that a response makes. -/
def Response.requests : Response → List Request
  | .made requests => requests
  | .refused _ => []
  | .received _ => []

/-- The response to a step of the user. -/
def respond : Stepped → Negotiation × Response
  | (n, .ok request) => (n, .made [request])
  | (n, .error error) => (n, .refused error)

/-- A move of the user. -/
def make (n : Negotiation) : Move → Negotiation × Response
  | .submit text => respond (n.submit text)
  | .refreshPeers => respond n.refreshPeers
  | .selectPeer peer => respond (n.selectPeer peer)
  | .decline =>
    match n.decline with
    | (n, .ok ()) => (n, .made [])
    | (n, .error error) => (n, .refused error)
  | .confirm => respond n.confirm
  | .refreshWallet => respond n.refreshWallet

/-- An answer is offered. -/
def receive (n : Negotiation) (ticket : Ticket) : Answer → Negotiation × Reception
  | .providers result => n.peersLoaded ticket result
  | .metadata result => n.metadataLoaded ticket result
  | .transfer result => n.transferFinished ticket result

/-- The negotiation after an event, and the response to the event. -/
def perform (n : Negotiation) : Event → Negotiation × Response
  | .start hash => ((n.start hash).1, .made (n.start hash).2)
  | .close => (n.close, .made [])
  | .move move => n.make move
  | .answer ticket answer => ((n.receive ticket answer).1, .received (n.receive ticket answer).2)
  | .wallet epoch result => ((n.walletLoaded epoch result).1,
      .received (n.walletLoaded epoch result).2)

/-! ## Runs -/

/-- An event and the response it got. -/
structure Entry where
  event : Event
  response : Response

/-- The negotiation `n` after a run of events, the latest event first. -/
def after (n : Negotiation) : List Event → Negotiation
  | [] => n
  | event :: past => ((after n past).perform event).1

/-- The response to an event that follows a run. -/
def response (n : Negotiation) (past : List Event) (event : Event) : Response :=
  ((after n past).perform event).2

/-- The record of a run, the latest entry first. -/
def history (n : Negotiation) : List Event → List Entry
  | [] => []
  | event :: past => ⟨event, response n past event⟩ :: history n past

theorem after_append (n : Negotiation) (late early : List Event) :
    after n (late ++ early) = after (after n early) late := by
  induction late with
  | nil => rfl
  | cons event late ih => simp only [List.cons_append, after, ih]

theorem response_append (n : Negotiation) (late early : List Event) (event : Event) :
    response n (late ++ early) event = response (after n early) late event := by
  simp only [response, after_append]

theorem history_append (n : Negotiation) (late early : List Event) :
    history n (late ++ early) = history (after n early) late ++ history n early := by
  induction late with
  | nil => rfl
  | cons event late ih => simp only [List.cons_append, history, ih, response_append]

/-! ## What a history shows -/

/-- Whether an entry opens the negotiation. -/
def Entry.isStart : Entry → Bool
  | ⟨.start _, _⟩ => true
  | _ => false

/-- The history since the negotiation was last opened, with the entry that opened it. -/
def current : List Entry → List Entry
  | [] => []
  | entry :: past => if entry.isStart then [entry] else entry :: current past

/-- The questions asked with a ticket in one entry, the latest first. -/
def Entry.issued (entry : Entry) : List (Query × Ticket) :=
  (entry.response.requests.filterMap Request.ticketed?).reverse

/-- The questions asked with a ticket, the latest first. -/
def issued (past : List Entry) : List (Query × Ticket) := past.flatMap Entry.issued

/-- The ticket of the answer that an entry takes. -/
def Entry.accepted? : Entry → Option Ticket
  | ⟨.answer ticket _, .received .accepted⟩ => some ticket
  | _ => none

/-- The tickets of the answers that were taken, the latest first. -/
def accepted (past : List Entry) : List Ticket := past.filterMap Entry.accepted?

theorem current_cons_of_isStart {entry : Entry} (h : entry.isStart = true) (past : List Entry) :
    current (entry :: past) = [entry] :=
  if_pos h

theorem current_cons_of_not_isStart {entry : Entry} (h : entry.isStart = false)
    (past : List Entry) : current (entry :: past) = entry :: current past :=
  if_neg (Bool.eq_false_iff.1 h)

theorem issued_cons (entry : Entry) (past : List Entry) :
    issued (entry :: past) = entry.issued ++ issued past :=
  List.flatMap_cons

/-- Every ticket of a history was issued by one of its events. -/
theorem exists_of_mem_issued {n : Negotiation} {past : List Event} {question : Query × Ticket}
    (h : question ∈ issued (history n past)) :
    ∃ late event early, past = late ++ event :: early ∧
      ∃ request ∈ (response n early event).requests, request.ticketed? = some question := by
  induction past with
  | nil => cases h
  | cons event past ih =>
    -- The latest event issued it, or it stood in the history before.
    rw [history, issued_cons] at h
    rcases List.mem_append.1 h with h | h
    · rw [Entry.issued, List.mem_reverse, List.mem_filterMap] at h
      exact ⟨[], event, past, rfl, h⟩
    · obtain ⟨late, event', early, rfl, hrequest⟩ := ih h
      exact ⟨event :: late, event', early, rfl, hrequest⟩

end Negotiation

end FileMarket
