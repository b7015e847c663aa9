import FileMarket.Proofs.Desk.Office
import FileMarket.Proofs.Desk.Parts

/-!
# Errands

Every job under way is out on an errand: to bring a listing, the answer to a question, a wallet, or
the end of a batch. What the desk waits for, one errand is out for, and only one (`Desk.Accounted`).
A command sends out the errands of the jobs that it starts, and a report ends the errand that it
comes from, whatever the desk makes of it; so this holds in every run (`Office.accounted_after`),
and a desk that has nothing out waits for nothing (`Desk.Quiet`).
-/

set_option autoImplicit false

namespace FileMarket

/-! ## Errands -/

/-- What a job is to bring. -/
inductive Errand where
  | load (token : LoadToken)
  | batch
  | wallet (epoch : Nat)
  | ask (query : Query) (ticket : Ticket)
deriving DecidableEq

namespace Errand

/-- The token of the listing to be brought. -/
def load? : Errand → Option LoadToken
  | .load token => some token
  | _ => none

/-- The question whose answer is to be brought, and its ticket. -/
def ticketed? : Errand → Option (Query × Ticket)
  | .ask query ticket => some (query, ticket)
  | _ => none

/-- The epoch of the wallet to be brought. -/
def wallet? : Errand → Option Nat
  | .wallet epoch => some epoch
  | _ => none

/-- The ticket of the answer to be brought. -/
def ticket? (errand : Errand) : Option Ticket := errand.ticketed?.map (·.2)

end Errand

/-- The errand of a request. -/
def Request.errand : Request → Errand
  | .wallet epoch => .wallet epoch
  | .providers ticket => .ask .providers ticket
  | .metadata ticket => .ask .metadata ticket
  | .download ticket _ _ => .ask .transfer ticket

/-- The errand of a job. -/
def Job.errand : Job → Errand
  | .load token => .load token
  | .batch _ _ _ => .batch
  | .request question => question.errand

/-- The errand that a report ends. -/
def Report.errand : Report → Errand
  | .loaded token _ => .load token
  | .batchFinished _ _ _ => .batch
  | .walletLoaded epoch _ => .wallet epoch
  | .peersLoaded ticket _ => .ask .providers ticket
  | .metadataLoaded ticket _ => .ask .metadata ticket
  | .transferFinished ticket _ => .ask .transfer ticket

/-- The errand of a job under way. -/
def JobState.errand : JobState → Errand
  | .started job => job.errand
  | .sending _ _ _ _ => .batch
  | .arrived arrival => .ask .transfer arrival.ticket
  | .ended report => report.errand

@[simp]
theorem Request.load?_errand (request : Request) : request.errand.load? = none := by
  cases request <;> rfl

@[simp]
theorem Request.ticketed?_errand (request : Request) :
    request.errand.ticketed? = request.ticketed? := by
  cases request <;> rfl

@[simp]
theorem Request.wallet?_errand (request : Request) : request.errand.wallet? = request.wallet? := by
  cases request <;> rfl

@[simp]
theorem Request.errand_ne_batch (request : Request) : request.errand ≠ .batch := by
  cases request <;> exact Errand.noConfusion

/-- Making its calls, a job stays on its errand. -/
theorem Job.errand_call {σ : Type} (node : Node σ) (job : Job) (server : σ) :
    (job.call node server).1.state.errand = job.errand := by
  match job with
  | .load token => rfl
  | .batch action origin records => rfl
  | .request (.wallet epoch) => rfl
  | .request (.providers ticket) => rfl
  | .request (.metadata ticket) => rfl
  | .request (.download ticket price record) =>
    simp only [call]
    split <;> rfl

/-- Being saved, a payload stays on the errand of its transfer. -/
theorem Arrival.errand_step (arrival : Arrival) (today : Date) (directory : Directory) :
    (arrival.step today directory).1.state.errand = .ask .transfer arrival.ticket := by
  unfold step
  dsimp only
  split <;> rfl

/-- A job stays on its errand to its end. -/
theorem JobState.errand_advance {σ : Type} (node : Node σ) (today : Date) (world : World σ)
    (state : JobState) : (state.advance node today world).1.errand = state.errand := by
  cases state with
  | started job =>
    cases job with
    | batch action origin records => rfl
    | load token => exact Job.errand_call node (.load token) world.server
    | request request => exact Job.errand_call node (.request request) world.server
  | sending action origin results left => cases left <;> rfl
  | arrived arrival => exact arrival.errand_step today world.directory
  | ended report => rfl

/-! ## The desk and its errands -/

namespace Desk

/-- What the desk waits for, one errand is out for, told apart by what it is to bring. -/
structure Accounted (desk : Desk) (errands : List Errand) : Prop where
  grid : desk.grid.Attended (errands.filterMap Errand.load?)
  negotiation : desk.negotiation.Attended (errands.filterMap Errand.ticketed?)
    (errands.filterMap Errand.wallet?)
  batch : errands.count .batch = if desk.batchRunning then 1 else 0

namespace Parts

variable {desk : Desk} {onGrid : List Grid.Event} {onNegotiation : List Negotiation.Event}
  {sent : Option PendingBatch} {batching : Option PendingBatch × Bool} {result : Stepped}

/-- The errands of the jobs that a step starts. -/
theorem errands (h : Parts desk onGrid onNegotiation sent batching result) :
    result.2.map Job.errand = (Grid.issued (Grid.history desk.grid onGrid)).map .load ++
      sent.toList.map (fun _ => .batch) ++
      (Negotiation.requested (Negotiation.history desk.negotiation onNegotiation)).map
        Request.errand := by
  rw [h.jobs, List.map_append, List.map_append, List.map_map, List.map_map, List.map_map]
  rfl

/-- The errands of one kind among them. -/
theorem filterMap_errand {α : Type} (h : Parts desk onGrid onNegotiation sent batching result)
    (kind : Errand → Option α) :
    (result.2.map Job.errand).filterMap kind =
      (Grid.issued (Grid.history desk.grid onGrid)).filterMap (fun token => kind (.load token)) ++
        sent.toList.filterMap (fun _ => kind .batch) ++
        (Negotiation.requested (Negotiation.history desk.negotiation onNegotiation)).filterMap
          (fun request => kind request.errand) := by
  rw [h.errands, List.filterMap_append, List.filterMap_append, List.filterMap_map,
    List.filterMap_map, List.filterMap_map]
  rfl

theorem count_batch (h : Parts desk onGrid onNegotiation sent batching result) :
    (result.2.map Job.errand).count .batch = sent.toList.length := by
  have hloads : ∀ tokens : List LoadToken, (tokens.map Errand.load).count .batch = 0 := by
    intro tokens
    exact List.count_eq_zero_of_not_mem (by simp)
  have hrequests : ∀ requests : List Request, (requests.map Request.errand).count .batch = 0 := by
    intro requests
    exact List.count_eq_zero_of_not_mem (by simp)
  rw [h.errands, List.count_append, List.count_append, hloads, hrequests]
  cases sent <;> rfl

end Parts

/-- No command speaks for the node. -/
theorem isReply_negotiationEvents (desk : Desk) (command : Command) :
    ∀ event ∈ desk.negotiationEvents command, event.isReply = false := by
  intro event hevent
  cases command with
  | requestBatch action price =>
    cases action with
    | download =>
      unfold negotiationEvents at hevent
      dsimp only at hevent
      split at hevent <;> simp_all [Negotiation.Event.isReply]
    | host | share | delete | info => simp [negotiationEvents] at hevent
  | confirmPurchase =>
    unfold negotiationEvents at hevent
    dsimp only at hevent
    split at hevent
    · simp_all [Negotiation.Event.isReply]
    · split at hevent
      · simp_all [Negotiation.Event.isReply]
      · rcases List.mem_pair.1 hevent with rfl | rfl <;> rfl
  | _ => simp_all [negotiationEvents, Negotiation.Event.isReply]

/-- So no command offers a wallet. -/
theorem negotiationEvents_ne_wallet (desk : Desk) (command : Command) :
    ∀ event ∈ desk.negotiationEvents command, ∀ epoch result, event ≠ .wallet epoch result := by
  intro event hevent epoch result heq
  have hreply := desk.isReply_negotiationEvents command event hevent
  rw [heq] at hreply
  cases hreply

/-- A batch is only sent while none is running, and then runs. -/
theorem sent?_add_running (desk : Desk) (command : Command) :
    (desk.sent? command).toList.length + (if desk.batchRunning then 1 else 0) =
      if (desk.batchingAfter command).2 then 1 else 0 := by
  cases command with
  | confirmBatch =>
    unfold sent? batchingAfter
    cases hrunning : desk.batchRunning with
    | true => simp [batching, hrunning]
    | false => cases desk.pending <;> rfl
  | requestBatch action price =>
    have hrunning : (desk.batchingAfter (.requestBatch action price)).2 = desk.batchRunning := by
      unfold batchingAfter
      dsimp only
      split <;> rfl
    rw [hrunning]
    exact Nat.zero_add _
  | _ => exact Nat.zero_add _

namespace Accounted

variable {desk : Desk} {errands errands' : List Errand}

theorem perm (h : Accounted desk errands) (hperm : errands.Perm errands') :
    Accounted desk errands' where
  grid := h.grid.perm (hperm.filterMap _)
  negotiation := ⟨h.negotiation.coherent, h.negotiation.asked.perm (hperm.filterMap _),
    h.negotiation.wallets.perm (hperm.filterMap _)⟩
  batch := by rw [← hperm.count_eq, h.batch]

/-- A step taken apart is accounted for if its parts are: each job that it starts is out on the
errand that one of the parts asks for. -/
theorem of_parts {onGrid : List Grid.Event} {onNegotiation : List Negotiation.Event}
    {sent : Option PendingBatch} {batching : Option PendingBatch × Bool} {result : Stepped}
    (hparts : Parts desk onGrid onNegotiation sent batching result)
    (hgrid : (Grid.after desk.grid onGrid).Attended
      (Grid.issued (Grid.history desk.grid onGrid) ++ errands.filterMap Errand.load?))
    (hnegotiation : (Negotiation.after desk.negotiation onNegotiation).Attended
      ((Negotiation.requested (Negotiation.history desk.negotiation onNegotiation)).filterMap
        Request.ticketed? ++ errands.filterMap Errand.ticketed?)
      ((Negotiation.requested (Negotiation.history desk.negotiation onNegotiation)).filterMap
        Request.wallet? ++ errands.filterMap Errand.wallet?))
    (hbatch : sent.toList.length + errands.count .batch = if batching.2 then 1 else 0) :
    Accounted result.1 (result.2.map Job.errand ++ errands) := by
  have hrunning : result.1.batchRunning = batching.2 := congrArg Prod.snd hparts.batching
  have hnone : ∀ {α β : Type} (list : List α),
      list.filterMap (fun _ => (none : Option β)) = [] := by
    intro α β list
    exact List.filterMap_eq_nil_iff.2 fun _ _ => rfl
  constructor
  · rw [List.filterMap_append, hparts.filterMap_errand, hparts.grid]
    simp only [Request.load?_errand]
    simpa [Errand.load?, hnone] using hgrid
  · rw [List.filterMap_append, List.filterMap_append, hparts.filterMap_errand,
      hparts.filterMap_errand, hparts.negotiation]
    simp only [Request.ticketed?_errand, Request.wallet?_errand]
    simpa [Errand.ticketed?, Errand.wallet?, hnone] using hnegotiation
  · rw [List.count_append, hparts.count_batch, hrunning]
    exact hbatch

/-- Every command is accounted for. -/
theorem handle (h : Accounted desk errands) (today : Date) (command : Command) :
    Accounted (desk.handle today command).1
      ((desk.handle today command).2.map Job.errand ++ errands) := by
  refine of_parts (desk.handle_parts today command) (h.grid.after _)
    (h.negotiation.after _ (desk.negotiationEvents_ne_wallet command)) ?_
  rw [h.batch]
  exact desk.sent?_add_running command

/-- The grid, once the errand of a report has ended. -/
theorem grid_receive {report : Report} (h : Accounted desk (report.errand :: errands)) :
    (Grid.after desk.grid (desk.reportedToGrid report)).Attended
      (Grid.issued (Grid.history desk.grid (desk.reportedToGrid report)) ++
        errands.filterMap Errand.load?) := by
  have hgrid := h.grid
  cases report with
  | loaded token result => exact Grid.Attended.finishLoad hgrid result
  | batchFinished | walletLoaded | peersLoaded | metadataLoaded | transferFinished =>
    exact Grid.Attended.after hgrid _

/-- The negotiation, once the errand of a report has ended. -/
theorem negotiation_receive {report : Report} (h : Accounted desk (report.errand :: errands)) :
    (Negotiation.after desk.negotiation (reportedToNegotiation report)).Attended
      ((Negotiation.requested (Negotiation.history desk.negotiation
        (reportedToNegotiation report))).filterMap Request.ticketed? ++
          errands.filterMap Errand.ticketed?)
      ((Negotiation.requested (Negotiation.history desk.negotiation
        (reportedToNegotiation report))).filterMap Request.wallet? ++
          errands.filterMap Errand.wallet?) := by
  have hnegotiation := h.negotiation
  cases report with
  | loaded | batchFinished => exact hnegotiation
  | walletLoaded epoch result => exact hnegotiation.walletLoaded result
  | peersLoaded ticket result =>
    exact Negotiation.Attended.receive (.providers result) hnegotiation
  | metadataLoaded ticket result =>
    exact Negotiation.Attended.receive (.metadata result) hnegotiation
  | transferFinished ticket result =>
    exact Negotiation.Attended.receive (.transfer result) hnegotiation

/-- Every report is accounted for, and ends an errand. -/
theorem receive {report : Report} (h : Accounted desk (report.errand :: errands)) :
    Accounted (desk.receive report).1 ((desk.receive report).2.map Job.errand ++ errands) := by
  refine of_parts (desk.receive_parts report) h.grid_receive h.negotiation_receive ?_
  have hbatch := h.batch
  cases report with
  | batchFinished action origin results =>
    show 0 + errands.count .batch = 0
    rw [Report.errand, List.count_cons_self] at hbatch
    split at hbatch <;> omega
  | loaded | walletLoaded | peersLoaded | metadataLoaded | transferFinished =>
    rw [Report.errand, List.count_cons_of_ne (by exact Errand.noConfusion)] at hbatch
    exact (Nat.zero_add _).trans hbatch

end Accounted

/-- A desk that waits for nothing: it lists no section, its negotiation is in no phase that waits
for an answer and would ask for the wallet again, and no batch is running. -/
structure Quiet (desk : Desk) : Prop where
  grid : desk.grid.isLoading = false
  negotiation : desk.negotiation.phase.isBusy = false
  wallet : ∀ what, desk.negotiation.refreshWallet.2 ≠ .error (.busy what)
  batch : desk.batchRunning = false

/-- A desk that has nothing out waits for nothing. -/
theorem Accounted.quiet {desk : Desk} (h : Accounted desk []) : Quiet desk where
  grid := by
    cases hloading : desk.grid.loading with
    | none => rw [Grid.isLoading, hloading]; rfl
    | some token =>
      have hcount := h.grid.loading token hloading
      cases hcount
  negotiation := by
    by_contra hbusy
    -- A phase that waits has a ticket, and a ticket that is waited for is out.
    have hpending : desk.negotiation.pending.isSome = true := by
      rw [h.negotiation.coherent.pending_isSome]
      revert hbusy
      cases desk.negotiation.phase <;> simp [Phase.isBusy]
    obtain ⟨ticket, hticket⟩ := Option.isSome_iff_exists.1 hpending
    obtain ⟨query, -, hfilter⟩ := h.negotiation.asked.pending ticket hticket
    cases hfilter
  wallet := by
    intro what
    apply Negotiation.refreshWallet_ne_busy
    by_contra hpending
    have hcount := h.negotiation.wallets.count
    rw [if_pos (by simpa using hpending)] at hcount
    cases hcount
  batch := by
    by_contra hrunning
    have hcount := h.batch
    rw [if_pos (by simpa using hrunning)] at hcount
    cases hcount

end Desk

/-! ## Runs of the office -/

namespace Office

variable {σ : Type}

/-- What the jobs under way are to bring. -/
def errands (office : Office σ) : List Errand := office.underway.map JobState.errand

/-- Every rule keeps the desk accounted for. -/
theorem accounted_step {node : Node σ} {office office' : Office σ} {event : Event}
    (h : office.desk.Accounted office.errands) (hstep : Step node office event office') :
    office'.desk.Accounted office'.errands := by
  unfold errands at h ⊢
  have hstarted : ∀ jobs : List Job, (jobs.map JobState.started).map JobState.errand =
      jobs.map Job.errand := by
    intro jobs
    rw [List.map_map]
    rfl
  cases hstep with
  | command today command =>
    rw [List.map_append, hstarted]
    exact (h.handle today command).perm List.perm_append_comm
  | advance today early late state found =>
    rw [found, List.map_append, List.map_cons] at h
    rw [List.map_append, List.map_cons, JobState.errand_advance]
    exact h
  | report today early late report found =>
    rw [found, List.map_append, List.map_cons] at h
    rw [List.map_append, hstarted, List.map_append]
    exact (h.perm List.perm_middle).receive.perm List.perm_append_comm
  | nothing today place => exact h

theorem accounted_opened (target : Section) (world : World σ) :
    (opened target world).desk.Accounted (opened target world).errands where
  grid := Grid.Attended.transition (Grid.Attended.new target) (.switchTo target)
  negotiation := Negotiation.Attended.new
  batch := rfl

theorem accounted_after (node : Node σ) (target : Section) (world : World σ)
    (past : List Event) :
    (after node (opened target world) past).desk.Accounted
      (after node (opened target world) past).errands := by
  induction past with
  | nil => exact accounted_opened target world
  | cons event past ih => exact accounted_step ih (step_perform node _ event)

/-- What the desk waits for, exactly one job under way is to bring: the listing, the answer to the
question that the phase waits for, the wallet of the present epoch, and the end of the batch. -/
structure Attended (office : Office σ) : Prop where
  loading : ∀ token, office.desk.grid.loading = some token →
    office.errands.count (.load token) = 1
  pending : ∀ ticket, office.desk.negotiation.pending = some ticket →
    ∃ query : Query, query.phase = office.desk.negotiation.phase ∧
      office.errands.filter (fun errand => errand.ticket? = some ticket) = [.ask query ticket]
  wallet : office.desk.negotiation.walletPending = true →
    office.errands.count (.wallet office.desk.negotiation.epoch) = 1
  batch : office.desk.batchRunning = true ↔ office.errands.count .batch = 1

theorem count_load (errands : List Errand) (token : LoadToken) :
    errands.count (.load token) = (errands.filterMap Errand.load?).count token := by
  rw [List.count_filterMap, List.count]
  apply List.countP_congr
  intro errand _
  cases errand <;> simp [Errand.load?]

theorem count_wallet (errands : List Errand) (epoch : Nat) :
    errands.count (.wallet epoch) = (errands.filterMap Errand.wallet?).count epoch := by
  rw [List.count_filterMap, List.count]
  apply List.countP_congr
  intro errand _
  cases errand <;> simp [Errand.wallet?]

theorem filter_ticket (errands : List Errand) (ticket : Ticket) :
    errands.filter (fun errand => errand.ticket? = some ticket) =
      ((errands.filterMap Errand.ticketed?).filter fun question => question.2 = ticket).map
        fun question => .ask question.1 question.2 := by
  induction errands with
  | nil => rfl
  | cons errand errands ih =>
    cases hticketed : errand.ticketed? with
    | none =>
      have hticket : errand.ticket? = none := by rw [Errand.ticket?, hticketed]; rfl
      rw [List.filter_cons_of_neg (by simp [hticket]), List.filterMap_cons_none hticketed, ih]
    | some question =>
      have herrand : errand = .ask question.1 question.2 := by
        cases errand <;> cases hticketed
        rfl
      have hticket : errand.ticket? = some question.2 := by rw [Errand.ticket?, hticketed]; rfl
      rw [List.filterMap_cons_some hticketed]
      by_cases hsame : question.2 = ticket
      · rw [List.filter_cons_of_pos (by simp [hticket, hsame]),
          List.filter_cons_of_pos (by simp [hsame]), List.map_cons, ih, ← herrand]
      · rw [List.filter_cons_of_neg (by simp [hticket, hsame]),
          List.filter_cons_of_neg (by simp [hsame]), ih]

theorem attended_of_accounted {office : Office σ}
    (h : office.desk.Accounted office.errands) : Attended office where
  loading := by
    intro token hloading
    rw [count_load]
    exact h.grid.loading token hloading
  pending := by
    intro ticket hticket
    obtain ⟨query, hphase, hfilter⟩ := h.negotiation.asked.pending ticket hticket
    refine ⟨query, hphase, ?_⟩
    rw [filter_ticket, hfilter]
    rfl
  wallet := by
    intro hpending
    rw [count_wallet, h.negotiation.wallets.count, if_pos hpending]
  batch := by
    rw [h.batch]
    cases office.desk.batchRunning <;> simp

/-- In every run of an office, whatever the jobs are answered with and in whatever order they go on,
what the desk waits for is what exactly one job is to bring. So a desk with nothing under way waits
for nothing, and driving the desk until nothing is left always comes to such a desk. -/
theorem attended_after (node : Node σ) (target : Section) (world : World σ)
    (past : List Event) :
    Attended (after node (opened target world) past) ∧
      ((after node (opened target world) past).underway = [] →
        (after node (opened target world) past).desk.Quiet) ∧
      ∀ (today : Date) (jobs : List Job) (arrived : List Arrival),
        (after node (opened target world) past).underway.Perm
          (jobs.map .started ++ arrived.map .arrived) →
        ((after node (opened target world) past).desk.drive node today
          (after node (opened target world) past).world jobs arrived).1.Quiet := by
  have hquiet : ∀ past, (after node (opened target world) past).underway = [] →
      (after node (opened target world) past).desk.Quiet := by
    intro past hnone
    have h := accounted_after node target world past
    rw [errands, hnone] at h
    exact h.quiet
  refine ⟨attended_of_accounted (accounted_after node target world past), hquiet past, ?_⟩
  intro today jobs arrived hperm
  obtain ⟨late, hlate⟩ := Reaches.drive node _ _ today jobs arrived _ hperm
  have hend := hquiet (late ++ past)
  rw [after_append, hlate] at hend
  exact hend rfl

end Office

end FileMarket
