import FileMarket.Proofs.Negotiation.Purchase

/-!
# What a file is called

A file is looked up by its hash, and the record that a peer offers for it carries a hash of its own.
A record without one gets the hash that was looked up; any other keeps its own. So an offer is
called by the hash of the negotiation unless the peer has named another file (`names_offer`), and so
is the record that goes along with the request for the purchase (`names_download`). What has been
saved was brought for the hash, and by the peer, that the negotiation still is about (`Delivered`).
-/

set_option autoImplicit false

namespace FileMarket

theorem FileRecord.hashed_hash (record : FileRecord) (hash : String) :
    (record.hashed hash).hash = if record.hash = "" then hash else record.hash := by
  unfold FileRecord.hashed
  simp only [String.isEmpty_iff]
  split <;> rfl

namespace Negotiation

/-! ## Names -/

/-- A peer has named another file in place of the one with a hash: in a record that was taken, in
answer to a question about the hash. -/
def Misnamed (past : List Entry) (peer : Option String) (hash name : String) : Prop :=
  name ≠ hash ∧ name ≠ "" ∧ ∃ entry ∈ past, ∃ asked answer,
    entry.metadata? = some (asked, .ok answer) ∧ asked.hash = hash ∧ asked.peer = peer ∧
      answer.hash = name

/-- What the file with a hash is called: its hash, unless the peer has named another file. -/
def Names (past : List Entry) (peer : Option String) (hash name : String) : Prop :=
  name = hash ∨ Misnamed past peer hash name

/-- What was answered once stays answered. -/
theorem Names.append {past : List Entry} {peer : Option String} {hash name : String}
    (h : Names past peer hash name) (late : List Entry) : Names (late ++ past) peer hash name := by
  rcases h with heq | ⟨hother, hgiven, entry, hentry, hanswer⟩
  · exact .inl heq
  · exact .inr ⟨hother, hgiven, entry, List.mem_append_right late hentry, hanswer⟩

theorem mem_of_mem_current {entry : Entry} {past : List Entry} (h : entry ∈ current past) :
    entry ∈ past := by
  induction past with
  | nil => cases h
  | cons first past ih =>
    unfold current at h
    split at h
    · rw [List.mem_singleton.1 h]
      exact List.mem_cons_self
    · rcases List.mem_cons.1 h with rfl | h
      · exact List.mem_cons_self
      · exact List.mem_cons_of_mem first (ih h)

/-- In every run, the offer at hand is a record that the chosen peer gave for the hash. -/
theorem exists_answer_of_offer (past : List Event) {record : FileRecord}
    (h : (after new past).metadata = some record) :
    ∃ entry ∈ history new past, ∃ asked answer, entry.metadata? = some (asked, .ok answer) ∧
      asked.hash = (after new past).hash ∧ asked.peer = (after new past).chosen ∧
      answer.hashed (after new past).hash = record := by
  obtain ⟨asked, answer, hlatest, -, hhash, hpeer, hrecord⟩ := (founded_history past).offer record h
  obtain ⟨entry, hentry, hanswer⟩ := List.exists_of_findSome?_eq_some hlatest
  exact ⟨entry, mem_of_mem_current hentry, asked, answer, hanswer, hhash, hpeer, hrecord⟩

/-- In every run, the offer at hand is called by the hash of the negotiation, unless the chosen peer
has named another file. -/
theorem names_offer (past : List Event) {record : FileRecord}
    (h : (after new past).metadata = some record) :
    Names (history new past) (after new past).chosen (after new past).hash record.hash := by
  obtain ⟨entry, hentry, asked, answer, hanswer, hhash, hpeer, rfl⟩ := exists_answer_of_offer past h
  -- The peer's own hash is kept unless it is empty, and may be another one.
  rw [FileRecord.hashed_hash]
  split
  · exact .inl rfl
  · rename_i hgiven
    by_cases hsame : answer.hash = (after new past).hash
    · exact .inl hsame
    · exact .inr ⟨hsame, hgiven, entry, hentry, asked, answer, hanswer, hhash, hpeer, rfl⟩

/-- So is the record of a purchase that is requested. -/
theorem names_download (past : List Event) (event : Event) {ticket : Ticket} {price : Binary64}
    {record : FileRecord}
    (h : .download ticket price record ∈ (response new past event).requests) :
    Names (history new past) ticket.peer ticket.hash record.hash := by
  obtain ⟨-, -, hoffer, hpeer, hticket, -⟩ :=
    (transition_perform (after new past) event).download h
  have hhash : ticket.hash = (after new past).hash := by rw [hticket]
  rw [← hpeer, hhash]
  exact names_offer past hoffer

/-! ## Files that were delivered -/

/-- What has been saved was delivered for the hash and by the peer at hand. -/
def Delivered (n : Negotiation) (past : List Event) : Prop :=
  ∀ saved, n.saved = some saved → ∃ ticket, .answer ticket (.transfer (.ok saved)) ∈ past ∧
    ticket.hash = n.hash ∧ ticket.peer = n.chosen

namespace Delivered

variable {n n' : Negotiation} {past : List Event} {event : Event}

/-- Nothing has been saved. -/
theorem of_none (h : n.saved = none) : Delivered n past := by
  intro saved hsaved
  rw [h] at hsaved
  cases hsaved

/-- A step that touches nothing of it. -/
theorem keep (h : Delivered n past) (hsaved : n'.saved = n.saved) (hhash : n'.hash = n.hash)
    (hchosen : n'.chosen = n.chosen) : Delivered n' (event :: past) := by
  intro saved heq
  rw [hsaved] at heq
  rw [hhash, hchosen]
  obtain ⟨ticket, hanswer, hticket⟩ := h saved heq
  exact ⟨ticket, List.mem_cons_of_mem event hanswer, hticket⟩

/-- Every rule keeps what has been saved about the hash and the peer at hand. -/
theorem transition {response : Response} (h : Delivered n past) (hn : Coherent n)
    (hrule : Transition n event response n') : Delivered n' (event :: past) := by
  cases hrule with
  | start | startBlank | startUnfit | startSearch | close | submitUnfit | submitSearch =>
    exact of_none rfl
  | selectPeer peer isOpen listed known =>
    -- Another peer is chosen only where nothing has been saved.
    exact of_none (hn.saved_eq_none (by rcases listed with h | h <;> simp [h]))
  | decline offered => exact of_none (hn.saved_eq_none (by simp [offered]))
  | metadataFailed ticket error awaited =>
    exact of_none (hn.saved_eq_none (by simp [phase_of_awaits awaited]))
  | transferred ticket saved awaited =>
    obtain ⟨-, hphase, hpending⟩ := (awaits_eq_true_iff n _ _).1 awaited
    have hticket := hn.pending_eq ticket hpending
    rw [hphase] at hticket
    -- The ticket waited for is about the hash and the peer at hand.
    intro saved' hsaved
    cases hsaved
    exact ⟨ticket, List.mem_cons_self, by rw [hticket], by rw [hticket]; rfl⟩
  | refused | submitBlank | refreshPeers | confirmRefused | confirm | refreshWallet | stale | listed
  | unlisted | searchFailed | offered | transferFailed | walletStale | walletKnown
  | walletFailed => exact h.keep rfl rfl rfl

end Delivered

theorem delivered_after (past : List Event) : Delivered (after new past) past := by
  induction past with
  | nil => exact .of_none rfl
  | cons event past ih => exact ih.transition (Coherent.new.after past) (transition_perform _ event)

end Negotiation

end FileMarket
