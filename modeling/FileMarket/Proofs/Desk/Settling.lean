import FileMarket.Proofs.Desk.Idle

/-!
# Settling

The desk settles while the jobs that are out end one after the other: each time some job ends, the
desk takes in its report, and the jobs that this starts are out as well. Which job is the next to
end, and what it brings, is left open (`Desk.Settles`).

Only the end of a batch starts a further job, which is a load, and the end of a load starts none. So
in whatever order the jobs end, every one of them ends at most once, and beyond them at most one
load for each batch (`Desk.Settles.balance`); as any job that is out can be the next to end, the
desk settles for good after as many reports at most (`settles_in_any_order`). Driving the desk is
one way of settling (`Desk.settles_drive`), and so is all that happens in an office in which the
user gives no command (`Office.settles_after`).
-/

set_option autoImplicit false

namespace FileMarket

/-! ## Ends of jobs -/

/-- A job that ends, and what it brings. -/
structure Ending where
  job : Job
  reply : job.Reply

/-- The report that is handed in at the end. -/
def Ending.report (ending : Ending) : Report := ending.job.report ending.reply

/-- Whether a job carries out a batch. -/
def Job.isBatch : Job → Bool
  | .batch _ _ _ => true
  | _ => false

namespace Desk

/-- Some of the jobs that are out end in turn, in any order. Jobs that an end starts are out from
then on. -/
inductive Settles : Desk → List Job → List Ending → Desk → List Job → Prop
  | done {desk : Desk} {jobs left : List Job} (same : jobs.Perm left) :
      Settles desk jobs [] desk left
  | next {desk desk' : Desk} {jobs others left : List Job} {endings : List Ending}
      (ending : Ending) (out : jobs.Perm (ending.job :: others))
      (later : Settles (desk.receive ending.report).1
        (others ++ (desk.receive ending.report).2) endings desk' left) :
      Settles desk jobs (ending :: endings) desk' left

/-- The end of a batch starts one load at most, and no other end starts anything. -/
theorem exists_receive_eq_loads (desk : Desk) (ending : Ending) :
    ∃ tokens : List LoadToken, (desk.receive ending.report).2 = tokens.map .load ∧
      tokens.length ≤ if ending.job.isBatch then 1 else 0 := by
  obtain ⟨job, reply⟩ := ending
  match job with
  | .load _ => exact ⟨[], rfl, Nat.le_refl _⟩
  | .batch action origin records =>
    show ∃ tokens : List LoadToken, (desk.batchFinished action origin reply).2 = _ ∧
      tokens.length ≤ 1
    unfold batchFinished
    dsimp only
    split
    · exact ⟨[], rfl, Nat.zero_le _⟩
    · exact ⟨[_], rfl, Nat.le_refl _⟩
  | .request (.wallet _) => exact ⟨[], rfl, Nat.le_refl _⟩
  | .request (.providers _) => exact ⟨[], rfl, Nat.le_refl _⟩
  | .request (.metadata _) => exact ⟨[], rfl, Nat.le_refl _⟩
  | .request (.download _ _ _) => exact ⟨[], rfl, Nat.le_refl _⟩

theorem countP_loads (tokens : List LoadToken) :
    (tokens.map Job.load).countP Job.isBatch = 0 := by
  rw [List.countP_map]
  exact List.countP_eq_zero.2 fun _ _ => Bool.false_ne_true

/-- The reports that some outstanding jobs can come to: one for each, and one more for each batch.
-/
def outstanding (jobs : List Job) : Nat := jobs.length + jobs.countP Job.isBatch

namespace Settles

variable {desk desk' desk'' : Desk} {jobs jobs' left left' : List Job}
  {endings later : List Ending}

theorem perm (h : Settles desk jobs endings desk' left) (hperm : jobs.Perm jobs') :
    Settles desk jobs' endings desk' left := by
  cases h with
  | done same => exact .done (hperm.symm.trans same)
  | next ending out later => exact .next ending (hperm.symm.trans out) later

theorem trans (h : Settles desk jobs endings desk' left)
    (h' : Settles desk' left later desk'' left') :
    Settles desk jobs (endings ++ later) desk'' left' := by
  induction h with
  | done same => exact h'.perm same.symm
  | next ending out _ ih => exact .next ending out (ih h')

/-- Any job that is out can be the next to end, whatever it brings. -/
theorem next_of_mem {job : Job} (h : job ∈ left) (desk : Desk) (reply : job.Reply) :
    ∃ desk' left', Settles desk left [⟨job, reply⟩] desk' left' :=
  ⟨_, _, .next ⟨job, reply⟩ (List.perm_cons_erase h) (.done (List.Perm.refl _))⟩

/-- The jobs that have ended and those that are left are the jobs that were out, together with loads
of which there are no more than batches that have ended. -/
theorem balance (h : Settles desk jobs endings desk' left) :
    ∃ tokens : List LoadToken,
      (endings.map Ending.job ++ left).Perm (jobs ++ tokens.map .load) ∧
        tokens.length ≤ (endings.map Ending.job).countP Job.isBatch := by
  induction h with
  | done same => exact ⟨[], by simpa using same.symm, Nat.le_refl _⟩
  | @next desk desk' jobs others left endings ending out _ ih =>
    obtain ⟨tokens, hperm, hcount⟩ := ih
    obtain ⟨started, hstarted, hone⟩ := desk.exists_receive_eq_loads ending
    rw [hstarted, List.append_assoc, ← List.map_append] at hperm
    refine ⟨started ++ tokens, ?_, ?_⟩
    · exact (hperm.cons ending.job).trans (out.symm.append_right _)
    · rw [List.length_append, List.map_cons, List.countP_cons]
      omega

/-- No batch is started: those that were out have ended or are left. -/
theorem countP_batches (h : Settles desk jobs endings desk' left) :
    (endings.map Ending.job).countP Job.isBatch + left.countP Job.isBatch =
      jobs.countP Job.isBatch := by
  obtain ⟨tokens, hperm, _⟩ := h.balance
  have hbatches := hperm.countP_eq Job.isBatch
  rwa [List.countP_append, List.countP_append, countP_loads, Nat.add_zero] at hbatches

/-- A report is one less that is still to come. -/
theorem length_add_outstanding_le (h : Settles desk jobs endings desk' left) :
    endings.length + outstanding left ≤ outstanding jobs := by
  obtain ⟨tokens, hperm, hcount⟩ := h.balance
  have hlength := hperm.length_eq
  have hbatches := h.countP_batches
  simp only [List.length_append, List.length_map] at hlength
  unfold outstanding
  omega

end Settles

/-- If every job brings something in the end, the desk settles for good, with as many reports at
most as there may be. -/
theorem exists_settles_nil (reply : (job : Job) → job.Reply) (desk : Desk) : (jobs : List Job) →
    ∃ endings desk', Settles desk jobs endings desk' [] ∧
      ∀ ending ∈ endings, ending = ⟨ending.job, reply ending.job⟩
  | [] => ⟨[], desk, .done (List.Perm.refl _), List.forall_mem_nil _⟩
  | job :: rest => by
    obtain ⟨desk', left, hnext⟩ :=
      Settles.next_of_mem (List.mem_cons_self (a := job) (l := rest)) desk (reply job)
    obtain ⟨endings, desk'', hrest, hreplies⟩ := exists_settles_nil reply desk' left
    exact ⟨_, desk'', hnext.trans hrest, List.forall_mem_cons.2 ⟨rfl, hreplies⟩⟩
-- With each job that ends, one report less is still to come, also if a batch starts a load.
termination_by jobs => outstanding jobs
decreasing_by
  have hless := hnext.length_add_outstanding_le
  simp only [List.length_singleton] at hless
  omega

end Desk

/-! ## Jobs under way -/

/-- The job that a payload comes from. -/
def Arrival.job (arrival : Arrival) : Job :=
  .request (.download arrival.ticket arrival.price arrival.record)

/-- How far a job may have come. -/
inductive JobState.Of : JobState → Job → Prop
  | started (job : Job) : Of (.started job) job
  | sending (action : Action) (origin : Section) (results : BatchResults)
      (left records : List FileRecord) :
      Of (.sending action origin results left) (.batch action origin records)
  | arrived (arrival : Arrival) : Of (.arrived arrival) arrival.job
  | ended (ending : Ending) : Of (.ended ending.report) ending.job

/-- A job that has ended brings its own report. -/
theorem JobState.Of.exists_report_eq {report : Report} {job : Job}
    (h : JobState.Of (.ended report) job) :
    ∃ reply : job.Reply, report = (Ending.mk job reply).report := by
  cases h with
  | ended ending => exact ⟨ending.reply, rfl⟩

theorem JobState.Of.eq_job {arrival : Arrival} {job : Job}
    (h : JobState.Of (.arrived arrival) job) : job = arrival.job := by
  cases h
  rfl

section Calls

variable {σ : Type} (node : Node σ) (today : Date)

theorem Job.of_call (job : Job) (server : σ) : (job.call node server).1.state.Of job := by
  match job with
  | .load token => exact .ended ⟨.load token, (node (.list token.target) server).1⟩
  | .batch action origin records =>
    exact .ended ⟨.batch action origin records, (mutateAll node action origin records server).1⟩
  | .request (.wallet epoch) => exact .ended ⟨.request (.wallet epoch), (node .wallet server).1⟩
  | .request (.providers ticket) =>
    exact .ended ⟨.request (.providers ticket), (node (.findProviders ticket.hash) server).1⟩
  | .request (.metadata ticket) =>
    exact .ended ⟨.request (.metadata ticket),
      (node (.requestMetadata (ticket.peer.getD "") ticket.hash) server).1⟩
  | .request (.download ticket price record) =>
    simp only [call]
    split
    · exact .arrived (.start ticket price record _)
    · exact .ended ⟨.request (.download ticket price record), .error _⟩

theorem Arrival.of_step (arrival : Arrival) (directory : Directory) :
    (arrival.step today directory).1.state.Of arrival.job := by
  unfold step
  dsimp only
  split
  · exact .arrived { arrival with saving := (arrival.saving.step directory.entries).1 }
  · exact .ended ⟨arrival.job, _⟩

/-- Going on, a job stays the job that it is. -/
theorem JobState.Of.advance {state : JobState} {job : Job} (h : state.Of job) (world : World σ) :
    (state.advance node today world).1.Of job := by
  cases h with
  | started job =>
    cases job with
    | load token => exact Job.of_call node (.load token) world.server
    | request request => exact Job.of_call node (.request request) world.server
    | batch action origin records => exact .sending action origin [] records records
  | sending action origin results left records =>
    cases left with
    | nil => exact .ended ⟨.batch action origin records, results⟩
    | cons record left => exact .sending action origin _ left records
  | arrived arrival => exact arrival.of_step today world.directory
  | ended ending => exact .ended ending

/-- Driving the desk until nothing is left, it settles. -/
theorem Desk.settles_drive (desk : Desk) (world : World σ) (jobs : List Job)
    (arrived : List Arrival) : ∃ endings,
      Settles desk (jobs ++ arrived.map Arrival.job) endings
        (desk.drive node today world jobs arrived).1 [] := by
  fun_induction Desk.drive node today desk world jobs arrived with
  | case1 desk world => exact ⟨[], .done (List.Perm.refl _)⟩
  | case2 desk world arrival arrived report directory hstep next ih =>
    obtain ⟨endings, hlater⟩ := ih
    have hof := arrival.of_step today world.directory
    rw [hstep] at hof
    obtain ⟨reply, rfl⟩ := hof.exists_report_eq
    exact ⟨_, .next ⟨arrival.job, reply⟩ (List.Perm.refl _) (hlater.perm List.perm_append_comm)⟩
  | case3 desk world arrival arrived arrival' directory hstep ih =>
    obtain ⟨endings, hlater⟩ := ih
    have hof := arrival.of_step today world.directory
    rw [hstep] at hof
    refine ⟨endings, hlater.perm ?_⟩
    -- The payload goes to the end of the line and is that of the same job.
    rw [List.map_append, List.map_singleton, ← hof.eq_job]
    exact List.perm_append_singleton _ _
  | case4 desk world job jobs arrived report server hcall next ih =>
    obtain ⟨endings, hlater⟩ := ih
    have hof := Job.of_call node job world.server
    rw [hcall] at hof
    obtain ⟨reply, rfl⟩ := hof.exists_report_eq
    refine ⟨_, .next ⟨job, reply⟩ (List.Perm.refl _) (hlater.perm ?_)⟩
    -- The jobs that the report starts come before the payloads.
    show (jobs ++ next.2 ++ arrived.map Arrival.job).Perm
      (jobs ++ arrived.map Arrival.job ++ next.2)
    rw [List.append_assoc, List.append_assoc]
    exact List.perm_append_comm.append_left jobs
  | case5 desk world job jobs arrived arrival server hcall ih =>
    obtain ⟨endings, hlater⟩ := ih
    have hof := Job.of_call node job world.server
    rw [hcall] at hof
    refine ⟨endings, hlater.perm ?_⟩
    rw [List.map_append, List.map_singleton, ← hof.eq_job, ← List.append_assoc]
    exact List.perm_append_singleton _ _

end Calls

namespace Office

variable {σ : Type} (node : Node σ)

/-- The jobs that an office has under way. -/
def Runs (office : Office σ) (jobs : List Job) : Prop :=
  List.Forall₂ JobState.Of office.underway jobs

theorem runs_started (desk : Desk) (jobs : List Job) (world : World σ) :
    Runs ⟨desk, jobs.map .started, world⟩ jobs := by
  rw [Runs, List.forall₂_map_left_iff, List.forall₂_same]
  exact fun job _ => .started job

/-- The job at a place, among those under way. -/
theorem Runs.exists_append {office : Office σ} {jobs : List Job} {early late : List JobState}
    {state : JobState} (h : Runs office jobs) (found : office.underway = early ++ state :: late) :
    ∃ before job behind, jobs = before ++ job :: behind ∧ List.Forall₂ JobState.Of early before ∧
      state.Of job ∧ List.Forall₂ JobState.Of late behind := by
  rw [Runs, found] at h
  clear found
  induction early generalizing jobs with
  | nil =>
    obtain ⟨job, behind, hstate, hlate, rfl⟩ := List.forall₂_cons_left_iff.1 h
    exact ⟨[], job, behind, rfl, .nil, hstate, hlate⟩
  | cons first early ih =>
    obtain ⟨other, rest, hfirst, hrest, rfl⟩ := List.forall₂_cons_left_iff.1 h
    obtain ⟨before, job, behind, rfl, hearly, hstate, hlate⟩ := ih hrest
    exact ⟨other :: before, job, behind, rfl, .cons hfirst hearly, hstate, hlate⟩

/-- When a job takes its next step, it goes on or its report is handed in. -/
theorem settles_advance {office : Office σ} {jobs : List Job} (h : Runs office jobs)
    (today : Date) (place : Nat) : ∃ endings left,
      Desk.Settles office.desk jobs endings (office.perform node (.advance today place)).desk left ∧
        Runs (office.perform node (.advance today place)) left ∧
        (Entry.report? ⟨office, .advance today place⟩).toList = endings.map Ending.report := by
  cases hplace : office.underway[place]? with
  | none =>
    have hperform : office.perform node (.advance today place) = office := by
      simp only [perform, hplace]
    rw [hperform]
    refine ⟨[], jobs, .done (List.Perm.refl _), h, ?_⟩
    simp only [Entry.report?, hplace]
    rfl
  | some state =>
    obtain ⟨early, late, found, rfl⟩ := exists_append_of_getElem? hplace
    obtain ⟨before, job, behind, rfl, hearly, hof, hlate⟩ := h.exists_append found
    have hentry : Entry.report? ⟨office, .advance today early.length⟩ = state.report? := by
      simp only [Entry.report?, hplace, Option.bind_some]
    rw [hentry]
    cases hreport : state.report? with
    | none =>
      rw [perform_advance today found hreport]
      exact ⟨[], before ++ job :: behind, .done (List.Perm.refl _),
        List.rel_append hearly (.cons (hof.advance node today office.world) hlate), rfl⟩
    | some report =>
      obtain rfl := JobState.report?_eq_some_iff.1 hreport
      obtain ⟨reply, rfl⟩ := hof.exists_report_eq
      rw [perform_report today found]
      exact ⟨[⟨job, reply⟩], _, .next ⟨job, reply⟩ List.perm_middle (.done (List.Perm.refl _)),
        List.rel_append (List.rel_append hearly hlate) (runs_started office.desk _ office.world),
        rfl⟩

/-- In an office in which the user gives no command, the desk settles. -/
theorem settles_after {office : Office σ} {jobs : List Job} (h : Runs office jobs)
    (past : List Event) (nobody : ∀ event ∈ past, ∃ today place, event = .advance today place) :
    ∃ endings left,
      Desk.Settles office.desk jobs endings (after node office past).desk left ∧
        Runs (after node office past) left ∧
        (history node office past).reverse.filterMap Entry.report? =
          endings.map Ending.report := by
  -- The latest event stands first, the reports in the order in which they come.
  induction past with
  | nil => exact ⟨[], jobs, .done (List.Perm.refl _), h, rfl⟩
  | cons event past ih =>
    obtain ⟨⟨today, place, rfl⟩, hpast⟩ := List.forall_mem_cons.1 nobody
    obtain ⟨earlier, left, hsettles, hruns, hreports⟩ := ih hpast
    obtain ⟨latest, left', hlast, hruns', hreport⟩ := settles_advance node hruns today place
    refine ⟨earlier ++ latest, left', hsettles.trans hlast, hruns', ?_⟩
    rw [history, List.reverse_cons, List.filterMap_append, hreports, List.map_append, ← hreport]
    cases hentry : Entry.report? ⟨after node office past, .advance today place⟩ with
    | none => rw [List.filterMap_cons_none hentry]; rfl
    | some report => rw [List.filterMap_cons_some hentry]; rfl

end Office

/-! ## Commands -/

namespace Desk

theorem outstanding_requests (requests : List Request) :
    outstanding (requests.map .request) = requests.length := by
  have hnone : (requests.map Job.request).countP Job.isBatch = 0 := by
    rw [List.countP_map]
    exact List.countP_eq_zero.2 fun _ _ => Bool.false_ne_true
  rw [outstanding, List.length_map, hnone, Nat.add_zero]

theorem outstanding_putGrid (desk : Desk) (result : Outcome Grid) :
    outstanding (desk.putGrid result).2 = 0 := by
  cases result <;> rfl

theorem outstanding_putNegotiation_le (desk : Desk) (step : Negotiation.Stepped) :
    outstanding (desk.putNegotiation step).2 ≤ 1 := by
  obtain ⟨n, error | request⟩ := step
  · exact Nat.zero_le _
  · exact Nat.le_refl _

/-- A negotiation begins with the wallet and, at most, one search. -/
theorem outstanding_openNegotiation_le (desk : Desk) (hash : Option String) :
    outstanding (desk.openNegotiation hash).2 ≤ 2 := by
  have hrequests : (desk.negotiation.start hash).2.length ≤ 2 := by
    unfold Negotiation.start
    dsimp only
    split
    · exact Nat.le_succ 1
    · split
      · exact Nat.le_refl 2
      · exact Nat.le_succ 1
  exact (outstanding_requests _).trans_le hrequests

theorem outstanding_requestBatch_le (desk : Desk) (action : Action) (price : Option String) :
    outstanding (desk.requestBatch action price).2 ≤ 2 := by
  have hprepare : ∀ (desk : Desk) (action : Action),
      outstanding (desk.prepareBatch action price).2 ≤ 2 := by
    intro desk action
    unfold prepareBatch
    split <;> exact Nat.zero_le _
  unfold requestBatch
  cases action with
  | info =>
    dsimp only
    split <;> exact Nat.zero_le _
  | download =>
    dsimp only
    split
    · exact outstanding_openNegotiation_le _ _
    · exact Nat.zero_le _
  | host | share | delete => exact hprepare _ _

theorem outstanding_confirmPurchase_le (desk : Desk) :
    outstanding desk.confirmPurchase.2 ≤ 1 := by
  unfold confirmPurchase
  split
  · exact Nat.le_refl 1
  · dsimp only
    split
    · exact Nat.zero_le 1
    · split
      · exact Nat.le_refl 1
      · exact Nat.zero_le 1

/-- No command starts more than two reports can come of: a negotiation that is opened asks for the
wallet and for providers, and a batch is followed by a load. -/
theorem outstanding_handle_le (desk : Desk) (today : Date) (command : Command) :
    outstanding (desk.handle today command).2 ≤ 2 := by
  cases command with
  | showSection target => exact Nat.le_succ 1
  | refresh =>
    unfold handle
    dsimp only
    split
    · exact Nat.le_succ 1
    · exact Nat.zero_le 2
  | setFilter | clickColumn | setSort | toggleRow =>
    exact (desk.outstanding_putGrid _).trans_le (Nat.zero_le 2)
  | clearFilters | toggleAll | closeInfo | closeNegotiation => exact Nat.zero_le 2
  | requestBatch action price => exact desk.outstanding_requestBatch_le action price
  | confirmBatch =>
    show outstanding desk.confirmBatch.2 ≤ 2
    unfold confirmBatch
    split
    · exact Nat.zero_le 2
    · split
      · exact Nat.zero_le 2
      · exact Nat.le_refl 2
  | cancelBatch =>
    unfold handle
    dsimp only
    split <;> exact Nat.zero_le 2
  | openNegotiation hash => exact desk.outstanding_openNegotiation_le hash
  | submitHash | refreshPeers | refreshWallet | selectPeer =>
    exact (desk.outstanding_putNegotiation_le _).trans (Nat.le_succ 1)
  | confirmPurchase => exact desk.outstanding_confirmPurchase_le.trans (Nat.le_succ 1)
  | declinePurchase =>
    unfold handle
    dsimp only
    split <;> exact Nat.zero_le 2

/-- Whatever is out, the desk settles, in whatever order the jobs end and whatever they bring. Each
job ends once at most, and besides these at most one load for each batch; while something is out,
any of it can end, and once nothing is, all is done. So it goes when the desk is driven, in an
office that runs on without the user, and after every command. -/
theorem settles_in_any_order {σ : Type} (node : Node σ) (desk : Desk) (jobs : List Job)
    (world : World σ) :
    (∀ endings desk' left, Settles desk jobs endings desk' left →
      (∃ tokens : List LoadToken,
        (endings.map Ending.job ++ left).Perm (jobs ++ tokens.map .load) ∧
          tokens.length ≤ jobs.countP Job.isBatch) ∧
      endings.length ≤ jobs.length + jobs.countP Job.isBatch ∧
      (∀ job ∈ left, ∀ reply, ∃ desk'' left',
        Settles desk jobs (endings ++ [⟨job, reply⟩]) desk'' left') ∧
      ∀ reply : (job : Job) → job.Reply, ∃ later desk'',
        Settles desk jobs (endings ++ later) desk'' [] ∧
          ∀ ending ∈ later, ending = ⟨ending.job, reply ending.job⟩) ∧
    (∀ today, ∃ endings, Settles desk jobs endings (desk.drive node today world jobs []).1 []) ∧
    (∀ past : List Office.Event,
      (∀ event ∈ past, ∃ today place, event = .advance today place) →
      ∃ endings left,
        Settles desk jobs endings
          (Office.after node ⟨desk, jobs.map .started, world⟩ past).desk left ∧
        Office.Runs (Office.after node ⟨desk, jobs.map .started, world⟩ past) left ∧
        (Office.history node ⟨desk, jobs.map .started, world⟩ past).reverse.filterMap
          Office.Entry.report? = endings.map Ending.report) ∧
    ∀ today command,
      (∃ endings, Settles (desk.handle today command).1 (desk.handle today command).2 endings
        (desk.dispatch node today world command).1 []) ∧
      ∀ endings desk' left,
        Settles (desk.handle today command).1 (desk.handle today command).2 endings desk' left →
        endings.length ≤ (desk.handle today command).2.length +
            (desk.handle today command).2.countP Job.isBatch ∧
          endings.length ≤ 2 := by
  -- The measure of what is still to come bounds the reports, also those that follow a command.
  have hbound : ∀ {desk jobs endings desk' left}, Settles desk jobs endings desk' left →
      endings.length ≤ outstanding jobs :=
    fun h => (Nat.le_add_right _ _).trans h.length_add_outstanding_le
  refine ⟨fun endings desk' left h => ⟨?_, hbound h, ?_, ?_⟩, ?_, ?_, fun today command => ⟨?_, ?_⟩⟩
  · obtain ⟨tokens, hperm, hcount⟩ := h.balance
    exact ⟨tokens, hperm, hcount.trans (h.countP_batches ▸ Nat.le_add_right _ _)⟩
  · intro job hjob reply
    obtain ⟨desk'', left', hnext⟩ := Settles.next_of_mem hjob desk' reply
    exact ⟨desk'', left', h.trans hnext⟩
  · intro reply
    obtain ⟨later, desk'', hlater, hreplies⟩ := exists_settles_nil reply desk' left
    exact ⟨later, desk'', h.trans hlater, hreplies⟩
  · intro today
    simpa using desk.settles_drive node today world jobs []
  · intro past nobody
    exact Office.settles_after node (Office.runs_started desk jobs world) past nobody
  · simpa [dispatch] using (desk.handle today command).1.settles_drive node today world
      (desk.handle today command).2 []
  · intro endings desk' left h
    exact ⟨hbound h, (hbound h).trans (desk.outstanding_handle_le today command)⟩

/-- A node that refuses every call. -/
def refusing : Node Unit := fun _ _ => (.error (.transport "refused"), ())

/-- A batch that ends in the section that shows has the section listed again, so that a load and a
batch come to three reports; of them, the one that was out first may come last. -/
theorem batch_between_loads :
    let desk := (opened .sharing).1
    let jobs : List Job := [.load ⟨.sharing, 1⟩, .batch .delete .sharing []]
    let world : World Unit := ⟨(), .absent ""⟩
    let endings : List Ending :=
      [⟨.batch .delete .sharing [], []⟩, ⟨.load ⟨.sharing, 2⟩, .ok []⟩,
        ⟨.load ⟨.sharing, 1⟩, .ok []⟩]
    let past : List Office.Event := [.advance default 0, .advance default 1]
    (∃ desk', Settles desk jobs endings desk' [] ∧ endings.length ≤ 2 + 1) ∧
      (∃ endings left,
        Settles desk jobs endings (Office.after refusing ⟨desk, jobs.map .started, world⟩ past).desk
          left) ∧
      ∃ desk', Settles (desk.handle default (.showSection .saved)).1
          (desk.handle default (.showSection .saved)).2 [⟨.load ⟨.saved, 2⟩, .ok []⟩] desk' [] ∧
        [Ending.mk (.load ⟨.saved, 2⟩) (.ok [])].length ≤ 1 + 0 := by
  intro desk jobs world endings past
  obtain ⟨hsettles, _, hoffice, hhandle⟩ := settles_in_any_order refusing desk jobs world
  have hrun : Settles desk jobs endings _ [] :=
    .next _ (List.Perm.swap _ _ _) (.next _ (List.Perm.swap _ _ _)
      (.next _ (List.Perm.refl _) (.done (List.Perm.refl _))))
  have hshown : Settles (desk.handle default (.showSection .saved)).1
      (desk.handle default (.showSection .saved)).2 [⟨.load ⟨.saved, 2⟩, .ok []⟩] _ [] :=
    .next _ (List.Perm.refl _) (.done (List.Perm.refl _))
  refine ⟨⟨_, hrun, (hsettles _ _ _ hrun).2.1⟩, ?_,
    ⟨_, hshown, ((hhandle default (.showSection .saved)).2 _ _ _ hshown).1⟩⟩
  obtain ⟨endings, left, hsettled, _⟩ := hoffice past (by simp [past])
  exact ⟨endings, left, hsettled⟩

end Desk

end FileMarket
