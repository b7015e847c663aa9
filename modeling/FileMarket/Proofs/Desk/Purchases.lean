import FileMarket.Proofs.Desk.Entries
import FileMarket.Proofs.Negotiation.Naming

/-!
# Purchases

A purchase is requested with the hash of the negotiation, and on its way back it is known by the
record that the peer has offered: that record goes with the request, with the payload that arrives,
with the file that is saved, and into the history of purchases (`JobState.Traced`). So whatever
comes of a purchase goes back to a call that was made for it, and is called by the hash sent in that
call, unless the peer has named another file (`bought_as_named`). Nothing stops a peer from that,
and the row that is then added takes the place of another purchase (`misnamed_purchase_displaces`).
-/

set_option autoImplicit false

namespace FileMarket

/-- The call that pays for a purchase. -/
def Ticket.payment (ticket : Ticket) (price : Binary64) : Call :=
  .download (ticket.peer.getD "") ticket.hash price

/-- The record of a purchase that was paid for: a call was made for it at the price that the record
gives, and it is called by the hash sent in that call, unless the peer has named another file. -/
structure Bought (calls : List Call) (past : List Negotiation.Entry) (ticket : Ticket)
    (record : FileRecord) : Prop where
  paid : ∃ price, record.price = some price ∧ ticket.payment price ∈ calls
  named : Negotiation.Names past ticket.peer ticket.hash record.hash

/-- What was paid for stays paid for. -/
theorem Bought.mono {calls calls' : List Call} {past : List Negotiation.Entry} {ticket : Ticket}
    {record : FileRecord} (h : Bought calls past ticket record) (hcalls : calls ⊆ calls')
    (late : List Negotiation.Entry) : Bought calls' (late ++ past) ticket record where
  paid := by
    obtain ⟨price, hprice, hcall⟩ := h.paid
    exact ⟨price, hprice, hcalls hcall⟩
  named := h.named.append late

/-! ## Purchases under way -/

/-- A purchase that is under way is traced: its record is the one that the peer has offered, and
from the arrival of the payload on it was paid for. -/
def JobState.Traced (calls : List Call) (past : List Negotiation.Entry) : JobState → Prop
  | .started (.request (.download ticket _ record)) =>
    Negotiation.Names past ticket.peer ticket.hash record.hash
  | .arrived arrival => ∀ today, Bought calls past arrival.ticket (arrival.purchased today)
  | .ended (.transferFinished ticket (.ok saved)) => Bought calls past ticket saved.record
  | _ => True

namespace JobState.Traced

variable {calls calls' : List Call} {past : List Negotiation.Entry} {state : JobState}

theorem mono (h : state.Traced calls past) (hcalls : calls ⊆ calls')
    (late : List Negotiation.Entry) : state.Traced calls' (late ++ past) := by
  cases state with
  | started job =>
    cases job with
    | request request =>
      cases request with
      | download ticket price record => exact Negotiation.Names.append h late
      | wallet | providers | metadata => trivial
    | load | batch => trivial
  | sending => trivial
  | arrived arrival => exact fun today => (h today).mono hcalls late
  | ended report =>
    cases report with
    | transferFinished ticket result =>
      cases result with
      | ok saved => exact Bought.mono h hcalls late
      | error error => trivial
    | loaded | batchFinished | walletLoaded | peersLoaded | metadataLoaded => trivial

/-- One step of a save: the payload stays, or it is reported with the record of its purchase. -/
theorem step {arrival : Arrival} (h : JobState.Traced calls past (.arrived arrival)) (today : Date)
    (directory : Directory) : (arrival.step today directory).1.state.Traced calls past := by
  unfold Arrival.step
  dsimp only
  split
  · exact h
  · rename_i result _
    cases result with
    | ok name => exact h today
    | error fault => trivial

variable {σ : Type} (node : Node σ)

/-- A download that is begun makes the call that pays for it. -/
theorem begin_download {ticket : Ticket} {record : FileRecord}
    (h : Negotiation.Names past ticket.peer ticket.hash record.hash) (price : Binary64)
    (server : σ × List Call) :
    ((Job.request (.download ticket price record)).begin node.logged server).1.Traced
      ((Job.request (.download ticket price record)).begin node.logged server).2.2 past := by
  rcases hanswer : node (.download (ticket.peer.getD "") ticket.hash price) server.1 with
    ⟨error | payload, server'⟩
  · have hbegin : (Job.request (.download ticket price record)).begin node.logged server =
        (.ended (.transferFinished ticket (.error error)),
          (server', server.2 ++ [ticket.payment price])) := by
      simp [Job.begin, Job.call, Node.logged, hanswer, Progress.state, Ticket.payment]
    rw [hbegin]
    trivial
  · have hbegin : (Job.request (.download ticket price record)).begin node.logged server =
        (.arrived (.start ticket price record payload),
          (server', server.2 ++ [ticket.payment price])) := by
      simp [Job.begin, Job.call, Node.logged, hanswer, Progress.state, Ticket.payment]
    rw [hbegin]
    intro today
    exact ⟨⟨price, rfl, List.mem_append_right _ (List.mem_singleton_self _)⟩, h⟩

/-- A job that goes on stays traced. -/
theorem advance (today : Date) {world : World (σ × List Call)}
    (h : state.Traced world.server.2 past) :
    (state.advance node.logged today world).1.Traced
      (state.advance node.logged today world).2.server.2 past := by
  cases state with
  | started job =>
    cases job with
    | request request =>
      cases request with
      | download ticket price record => exact begin_download node h price world.server
      | wallet | providers | metadata => trivial
    | load | batch => trivial
  | sending action origin results left => cases left <;> trivial
  | arrived arrival => exact h.step today world.directory
  | ended report => exact h

end JobState.Traced

namespace Office

variable {σ : Type}

/-- What was answered to the negotiation in a history. -/
def answers (past : List (Entry σ)) : List Negotiation.Entry :=
  Negotiation.history .new (onNegotiation past)

theorem answers_cons (entry : Entry σ) (past : List (Entry σ)) :
    ∃ late, answers (entry :: past) = late ++ answers past := by
  unfold answers
  rw [onNegotiation_cons, Negotiation.history_append]
  exact ⟨_, rfl⟩

/-! ## The invariant -/

/-- All purchases are traced: those under way, and those that were reported. -/
structure Tracing (office : Office (σ × List Call)) (past : List (Entry (σ × List Call))) :
    Prop where
  underway : ∀ state ∈ office.underway, state.Traced office.world.server.2 (answers past)
  reported : ∀ entry ∈ past, ∀ ticket saved,
    entry.report? = some (.transferFinished ticket (.ok saved)) →
      Bought office.world.server.2 (answers past) ticket saved.record

/-- A job that an entry starts is traced: a purchase is requested with the offer at hand. -/
theorem traced_of_mem_stepped {entry : Entry (σ × List Call)}
    {past : List (Entry (σ × List Call))}
    (hbefore : entry.before.desk.negotiation = Negotiation.after .new (onNegotiation past))
    {job : Job} (hjob : job ∈ entry.stepped.2) (calls : List Call) :
    (JobState.started job).Traced calls (answers (entry :: past)) := by
  cases job with
  | load | batch => trivial
  | request request =>
    cases request with
    | wallet | providers | metadata => trivial
    | download ticket price record =>
      have hrequested := Entry.requested_of_mem_stepped hjob
      obtain ⟨late, event, early, hevents, hrequest⟩ :=
        Negotiation.exists_of_mem_requested hrequested
      rw [hbefore, ← Negotiation.response_append] at hrequest
      have hnames := Negotiation.names_download _ event hrequest
      -- The offer was there before the event, so it was answered in the history.
      have hanswers : answers (entry :: past) =
          Negotiation.history (Negotiation.after .new (early ++ onNegotiation past))
            (late ++ [event]) ++ Negotiation.history .new (early ++ onNegotiation past) := by
        unfold answers
        rw [onNegotiation_cons, hevents, ← Negotiation.history_append]
        simp only [List.append_assoc, List.cons_append, List.nil_append]
      show Negotiation.Names _ _ _ _
      rw [hanswers]
      exact hnames.append _

/-- Every event keeps all purchases traced. -/
theorem Tracing.perform {node : Node σ} {office : Office (σ × List Call)}
    {past : List (Entry (σ × List Call))} (h : Tracing office past)
    (hbefore : office.desk.negotiation = Negotiation.after .new (onNegotiation past))
    (event : Event) : Tracing (office.perform node.logged event) (⟨office, event⟩ :: past) := by
  obtain ⟨late, hanswers⟩ := answers_cons ⟨office, event⟩ past
  have hcalls := calls_perform node office event
  constructor
  · intro state hstate
    rcases mem_underway_perform node.logged office event hstate with
      hstate | ⟨today, old, hold, rfl, hworld⟩ | ⟨job, hjob, rfl⟩
    · rw [hanswers]
      exact (h.underway state hstate).mono hcalls late
    · -- Going on, it makes the call that it is traced to.
      rw [hanswers, hworld]
      have hadvance := JobState.Traced.advance node today (h.underway old hold)
      exact hadvance.mono (List.Subset.refl _) late
    · exact traced_of_mem_stepped hbefore hjob _
  · intro entry hentry ticket saved hreport
    rw [hanswers]
    rcases List.mem_cons.1 hentry with rfl | hentry
    · -- The report was that of a job under way.
      have htraced := h.underway _ (Entry.mem_underway_of_report? hreport)
      exact Bought.mono htraced hcalls late
    · exact (h.reported entry hentry ticket saved hreport).mono hcalls late

theorem tracing_history (node : Node σ) (target : Section) (server : σ) (directory : Directory)
    (past : List Event) :
    Tracing (after node.logged (opened target ⟨(server, []), directory⟩) past)
      (history node.logged (opened target ⟨(server, []), directory⟩) past) := by
  induction past with
  | nil =>
    constructor
    · intro state hstate
      rw [List.mem_singleton.1 hstate]
      trivial
    · intro entry hentry
      cases hentry
  | cons event past ih => exact ih.perform (negotiation_after node.logged _ past) event

/-! ## All runs -/

/-- What the negotiation was told by the end of a transfer was reported by an entry. -/
theorem exists_report_of_mem_onNegotiation {past : List (Entry σ)} {ticket : Ticket}
    {result : Outcome SavedFile} (h : .answer ticket (.transfer result) ∈ onNegotiation past) :
    ∃ entry ∈ past, entry.report? = some (.transferFinished ticket result) := by
  obtain ⟨entry, hentry, hevent⟩ := List.mem_flatMap.1 h
  refine ⟨entry, hentry, ?_⟩
  obtain ⟨office, event⟩ := entry
  cases event with
  | command today command =>
    have hreply := office.desk.isReply_negotiationEvents command _ hevent
    cases hreply
  | advance today place =>
    unfold Entry.onNegotiation at hevent
    dsimp only at hevent
    cases hreport : Entry.report? ⟨office, .advance today place⟩ with
    | none =>
      rw [hreport] at hevent
      cases hevent
    | some report =>
      rw [hreport] at hevent
      cases report <;> simp_all [Desk.reportedToNegotiation]

/-- Whatever comes of purchases in an office goes back to calls that were made for them. -/
structure Accountable (office : Office (σ × List Call)) (past : List (Entry (σ × List Call))) :
    Prop where
  /-- A file that was saved for a purchase. -/
  saved : ∀ ticket saved, .ended (.transferFinished ticket (.ok saved)) ∈ office.underway →
    Bought office.world.server.2 (answers past) ticket saved.record
  /-- The file that the negotiation shows as saved. -/
  shown : ∀ saved, office.desk.negotiation.saved = some saved →
    ∃ ticket, ticket.hash = office.desk.negotiation.hash ∧
      Bought office.world.server.2 (answers past) ticket saved.record
  /-- A row that was added to the history of purchases. -/
  rows : ∀ entry ∈ past, ∀ record, entry.purchased? = some record → ∃ ticket saved,
    entry.report? = some (.transferFinished ticket (.ok saved)) ∧ saved.record = record ∧
      Bought office.world.server.2 (answers past) ticket record

theorem exists_report_of_purchased? {entry : Entry σ} {record : FileRecord}
    (h : entry.purchased? = some record) : ∃ ticket saved,
      entry.report? = some (.transferFinished ticket (.ok saved)) ∧ saved.record = record := by
  unfold Entry.purchased? at h
  split at h
  · rename_i ticket saved hreport
    split at h
    · exact ⟨ticket, saved, hreport, Option.some.inj h⟩
    · cases h
  · cases h

/-- In every run of a negotiation, the offer at hand and the record of every purchase that is
requested are called by the hash of the negotiation, which is the one that the request sends, unless
the peer asked has named another file. In every run of an office, so are the files saved for a
purchase and the rows added to the history of purchases, and a call was made for each of them with
that hash, at the price that the record gives. -/
theorem bought_as_named (dealings : List Negotiation.Event) (node : Node σ) (target : Section)
    (server : σ) (directory : Directory) (past : List Event) :
    (∀ record, (Negotiation.after .new dealings).metadata = some record →
      Negotiation.Names (Negotiation.history .new dealings)
        (Negotiation.after .new dealings).chosen (Negotiation.after .new dealings).hash
        record.hash) ∧
    (∀ event ticket price record,
      .download ticket price record ∈ (Negotiation.response .new dealings event).requests →
        ticket.hash = (Negotiation.after .new dealings).hash ∧
          Negotiation.Names (Negotiation.history .new dealings) ticket.peer ticket.hash
            record.hash) ∧
    Accountable (after node.logged (opened target ⟨(server, []), directory⟩) past)
      (history node.logged (opened target ⟨(server, []), directory⟩) past) := by
  have h := tracing_history node target server directory past
  refine ⟨fun record => Negotiation.names_offer dealings, ?_, ?_, ?_, ?_⟩
  · intro event ticket price record hrequest
    obtain ⟨-, -, -, -, hticket, -⟩ :=
      (Negotiation.transition_perform (Negotiation.after .new dealings) event).download hrequest
    exact ⟨by rw [hticket], Negotiation.names_download dealings event hrequest⟩
  · intro ticket saved hstate
    exact h.underway _ hstate
  · intro saved hsaved
    -- What the negotiation has saved it was told by a report.
    rw [negotiation_after] at hsaved ⊢
    obtain ⟨ticket, hanswer, hhash, -⟩ := Negotiation.delivered_after _ saved hsaved
    obtain ⟨entry, hentry, hreport⟩ := exists_report_of_mem_onNegotiation hanswer
    exact ⟨ticket, hhash, h.reported entry hentry ticket saved hreport⟩
  · intro entry hentry record hpurchased
    obtain ⟨ticket, saved, hreport, rfl⟩ := exists_report_of_purchased? hpurchased
    exact ⟨ticket, saved, hreport, rfl, h.reported entry hentry ticket saved hreport⟩

/-- A node with one purchase in its history, whose peer calls every file by the hash of that one. -/
def misnaming : Node Unit := fun call _ => match call with
  | .list _ => (.ok [.bare "f00d" "older.mp3"], ())
  | .findProviders _ => (.ok ["p1"], ())
  | .requestMetadata _ _ =>
    (.ok { FileRecord.bare "f00d" "song.mp3" with price := some .zero }, ())
  | .download _ _ _ => (.ok ⟨none, none, [1]⟩, ())
  | .wallet => (.ok ⟨none, .zero, .zero⟩, ())
  | .add _ _ | .delete _ _ => (.error (.transport "refused"), ())

/-- The history of purchases is listed, and then a song is looked up by its hash and bought. -/
def misnamedPurchase : List Event :=
  List.replicate 5 (.advance default 0) ++
    [.command default .confirmPurchase, .advance default 0, .advance default 0,
      .command default (.selectPeer "p1"), .advance default 0, .advance default 0,
      .advance default 0, .advance default 0, .command default (.openNegotiation (some "abc123")),
      .advance default 0, .advance default 0]

/-- The call that pays sends the hash that was looked up, but the offer, the file saved and the row
of the purchase have the hash that the peer has named, and the row of the older purchase is gone. -/
theorem misnamed_purchase_displaces :
    let office := after misnaming.logged (opened .purchased ⟨((), []), .absent ""⟩) misnamedPurchase
    office.underway.length = 0 ∧ office.desk.negotiation.hash = "abc123" ∧
      .download "p1" "abc123" .zero ∈ office.world.server.2 ∧
      office.desk.negotiation.metadata.map (·.hash) = some "f00d" ∧
      office.desk.negotiation.saved.map (·.record.hash) = some "f00d" ∧
      office.desk.grid.records.map (fun record => (record.hash, record.name)) =
        [("f00d", "song.mp3")] := by
  intro office
  refine ⟨?_, ?_, ?_, ?_, ?_, ?_⟩
  all_goals decide +kernel

end Office

end FileMarket
