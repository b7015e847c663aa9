import FileMarket.Http.Node
import FileMarket.Proofs.Desk.Errands
import FileMarket.Proofs.Grid.Preparation

/-!
# Batches

What changes the collections of the node. A batch is sent when the user confirms the one that waits
while no other is running, and the calls that it makes are settled from then on: one for each file
of its receipt, in order, whatever they are answered with and whatever is done at the desk
meanwhile. No other job changes anything. So the changes made so far, with those that a running
batch has left, are those of the batches sent (`Office.sent_as_confirmed`).
-/

set_option autoImplicit false

namespace FileMarket

/-! ## What is left of a batch -/

/-- The changes that a job under way has left to make. -/
def JobState.left : JobState → List Call
  | .started (.batch action origin records) => action.calls origin records
  | .sending action origin _ left => action.calls origin left
  | .started _ | .arrived _ | .ended _ => []

/-- Only a batch has changes left to make. -/
theorem JobState.left_eq_nil {state : JobState} (h : state.errand ≠ .batch) : state.left = [] := by
  cases state with
  | started job =>
    cases job with
    | batch action origin records => exact absurd rfl h
    | load token => rfl
    | request request => rfl
  | sending action origin results left => exact absurd rfl h
  | arrived arrival => rfl
  | ended report => rfl

/-- Jobs none of which is a batch have nothing left to change. -/
theorem JobState.flatMap_left_eq_nil {states : List JobState}
    (h : (states.map JobState.errand).count .batch = 0) : states.flatMap left = [] := by
  rw [List.flatMap_eq_nil_iff]
  intro state hmem
  apply left_eq_nil
  intro heq
  exact List.count_eq_zero.1 h (heq ▸ List.mem_map_of_mem hmem)

/-! ## One step of a job -/

section Steps

variable {σ : Type} (node : Node σ)

theorem mutate_logged (action : Action) (origin : Section) (record : FileRecord)
    (server : σ × List Call) : (mutate node.logged action origin record server).2.2 =
      server.2 ++ action.calls origin [record] := by
  cases action with
  | download | info => exact (List.append_nil _).symm
  | host | share | delete => rfl

/-- A job that is no batch makes one call, which changes nothing. -/
theorem Job.call_logged (job : Job) (server : σ × List Call) (h : job.errand ≠ .batch) :
    ∃ call : Call, call.isMutation = false ∧
      (job.call node.logged server).2.2 = server.2 ++ [call] ∧
      (job.call node.logged server).1.state.left = [] := by
  match job with
  | .load token => exact ⟨.list token.target, rfl, rfl, rfl⟩
  | .batch action origin records => exact absurd rfl h
  | .request (.wallet epoch) => exact ⟨.wallet, rfl, rfl, rfl⟩
  | .request (.providers ticket) => exact ⟨.findProviders ticket.hash, rfl, rfl, rfl⟩
  | .request (.metadata ticket) =>
    exact ⟨.requestMetadata (ticket.peer.getD "") ticket.hash, rfl, rfl, rfl⟩
  | .request (.download ticket price record) =>
    refine ⟨.download (ticket.peer.getD "") ticket.hash price, rfl, ?_⟩
    rcases hanswer : node (.download (ticket.peer.getD "") ticket.hash price) server.1 with
      ⟨error | payload, server'⟩
    · simp [call, Node.logged, hanswer, Progress.state, JobState.left]
    · simp [call, Node.logged, hanswer, Progress.state, JobState.left]

/-- What a job changes with a step, and what it has left after the step, is what it had left. -/
theorem JobState.exists_made (today : Date) (world : World (σ × List Call)) (state : JobState) :
    ∃ made : List Call,
      (state.advance node.logged today world).2.server.2 = world.server.2 ++ made ∧
      made.filter Call.isMutation ++ (state.advance node.logged today world).1.left =
        state.left := by
  cases state with
  | started job =>
    have hcall : job.errand ≠ .batch → ∃ made : List Call,
        (job.call node.logged world.server).2.2 = world.server.2 ++ made ∧
          made.filter Call.isMutation ++ (job.call node.logged world.server).1.state.left = [] := by
      intro herrand
      obtain ⟨call, hmutation, hcalls, hleft⟩ := job.call_logged node world.server herrand
      refine ⟨[call], hcalls, ?_⟩
      rw [hleft, List.append_nil, List.filter_cons_of_neg (by simp [hmutation])]
      rfl
    cases job with
    | batch action origin records => exact ⟨[], (List.append_nil _).symm, rfl⟩
    | load token => exact hcall Errand.noConfusion
    | request request => exact hcall request.errand_ne_batch
  | sending action origin results left =>
    cases left with
    | nil =>
      refine ⟨[], (List.append_nil _).symm, ?_⟩
      exact (action.calls_nil origin).symm
    | cons record left =>
      refine ⟨action.calls origin [record], mutate_logged node action origin record _, ?_⟩
      rw [action.filter_calls]
      exact (action.calls_cons origin record left).symm
  | arrived arrival =>
    have hleft : (arrival.step today world.directory).1.state.left = [] := by
      apply left_eq_nil
      rw [arrival.errand_step]
      exact Errand.noConfusion
    exact ⟨[], (List.append_nil _).symm, hleft⟩
  | ended report => exact ⟨[], (List.append_nil _).symm, rfl⟩

end Steps

/-! ## Batches that wait -/

namespace Desk

variable {desk : Desk}

/-- The batch that is sent is the one that waits, and none is running. -/
theorem pending_of_sent? {command : Command} {batch : PendingBatch}
    (h : desk.sent? command = some batch) :
    desk.pending = some batch ∧ desk.batchRunning = false := by
  cases command with
  | confirmBatch =>
    unfold sent? at h
    cases hrunning : desk.batchRunning with
    | true =>
      rw [hrunning] at h
      cases h
    | false =>
      rw [hrunning] at h
      exact ⟨h, rfl⟩
  | _ => cases h

/-- The jobs that a step starts have no more to change than the batch that is sent. -/
theorem Parts.flatMap_left {onGrid : List Grid.Event} {onNegotiation : List Negotiation.Event}
    {sent : Option PendingBatch} {batching : Option PendingBatch × Bool} {result : Stepped}
    (h : Parts desk onGrid onNegotiation sent batching result) :
    (result.2.map JobState.started).flatMap JobState.left =
      sent.toList.flatMap fun batch => batch.action.calls batch.origin batch.records := by
  have hloads : ∀ tokens : List LoadToken,
      ((tokens.map Job.load).map JobState.started).flatMap JobState.left = [] := by
    intro tokens
    simp [List.flatMap_eq_nil_iff, JobState.left]
  have hrequests : ∀ requests : List Request,
      ((requests.map Job.request).map JobState.started).flatMap JobState.left = [] := by
    intro requests
    simp [List.flatMap_eq_nil_iff, JobState.left]
  rw [h.jobs, List.map_append, List.map_append, List.flatMap_append, List.flatMap_append, hloads,
    hrequests, List.append_nil]
  cases sent <;> rfl

/-- A batch that waits fits the section that is shown. -/
def Fitting (desk : Desk) : Prop :=
  ∀ batch, desk.pending = some batch → batch.WellPrepared ∧ batch.origin = desk.grid.current

/-- Every command leaves a fitting batch: one that is prepared is of the section shown, and a move
to another section drops the one that waits. -/
theorem Fitting.handle (h : Fitting desk) (today : Date) (command : Command) :
    Fitting (desk.handle today command).1 := by
  have hparts := desk.handle_parts today command
  intro batch hpending
  have hafter : (desk.batchingAfter command).1 = some batch := by
    rw [← hparts.batching]
    exact hpending
  rw [hparts.grid]
  cases command with
  | showSection target => cases hafter
  | cancelBatch => cases hafter
  | requestBatch action price =>
    unfold batchingAfter at hafter
    dsimp only at hafter
    cases hprepare : desk.grid.prepareBatch action price with
    | error error =>
      rw [hprepare] at hafter
      exact h batch hafter
    | ok prepared =>
      rw [hprepare] at hafter
      obtain rfl := Option.some.inj hafter
      exact Grid.wellPrepared_of_prepareBatch hprepare
  | confirmBatch =>
    unfold batchingAfter at hafter
    dsimp only at hafter
    split at hafter
    · exact h batch hafter
    · cases hafter
  | _ =>
    obtain ⟨hprepared, horigin⟩ := h batch hafter
    refine ⟨hprepared, horigin.trans (Grid.current_after desk.grid ?_).symm⟩
    intro event hevent target heq
    subst heq
    simp [Command.gridEvents] at hevent

/-- No report moves to another section. -/
theorem Fitting.receive (h : Fitting desk) (report : Report) : Fitting (desk.receive report).1 := by
  have hparts := desk.receive_parts report
  intro batch hpending
  have hsame : (desk.batchingReported report).1 = desk.pending := by
    cases report <;> rfl
  have hbefore : desk.pending = some batch := by
    rw [← hsame, ← hparts.batching]
    exact hpending
  obtain ⟨hprepared, horigin⟩ := h batch hbefore
  refine ⟨hprepared, ?_⟩
  rw [hparts.grid, Grid.current_after]
  · exact horigin
  · intro event hevent target heq
    subst heq
    cases report with
    | transferFinished ticket result =>
      cases result <;> simp [reportedToGrid] at hevent
    | _ => simp [reportedToGrid] at hevent

end Desk

namespace Office

/-! ## What a history shows -/

namespace Entry

variable {σ : Type}

/-- The batch that an entry prepares. -/
def prepared? : Entry σ → Option PendingBatch
  | ⟨office, .command _ (.requestBatch action price)⟩ =>
    (office.desk.grid.prepareBatch action price).toOption
  | _ => none

/-- Whether an entry drops the batch that waits: by a move to a section, or by cancelling it. -/
def withdraws : Entry σ → Bool
  | ⟨_, .command _ (.showSection _)⟩ | ⟨_, .command _ .cancelBatch⟩ => true
  | _ => false

/-- The batch that an entry sends: the one that waits, when it is confirmed and none is running. -/
def sent? : Entry σ → Option PendingBatch
  | ⟨office, .command _ command⟩ => office.desk.sent? command
  | ⟨_, .advance _ _⟩ => none

end Entry

section Histories

variable {σ : Type}

/-- The batches sent, the first one first. -/
def sent (past : List (Entry σ)) : List PendingBatch := (past.filterMap Entry.sent?).reverse

/-- The batch prepared last, unless it was withdrawn or sent since. -/
def waiting : List (Entry σ) → Option PendingBatch
  | [] => none
  | entry :: past => match entry.prepared? with
    | some batch => some batch
    | none => if entry.withdraws || entry.sent?.isSome then none else waiting past

theorem sent_cons (entry : Entry σ) (past : List (Entry σ)) :
    sent (entry :: past) = sent past ++ entry.sent?.toList := by
  unfold sent
  cases hsent : entry.sent? with
  | none => rw [List.filterMap_cons_none hsent]; exact (List.append_nil _).symm
  | some batch => rw [List.filterMap_cons_some hsent]; exact List.reverse_cons

theorem waiting_of_prepared {entry : Entry σ} {past : List (Entry σ)} {batch : PendingBatch}
    (h : entry.prepared? = some batch) : waiting (entry :: past) = some batch := by
  simp only [waiting, h]

theorem waiting_of_sent {entry : Entry σ} {past : List (Entry σ)} {batch : PendingBatch}
    (hprepared : entry.prepared? = none) (h : entry.sent? = some batch) :
    waiting (entry :: past) = none := by
  simp [waiting, hprepared, h]

theorem waiting_of_kept {entry : Entry σ} {past : List (Entry σ)}
    (hprepared : entry.prepared? = none) (hwithdraws : entry.withdraws = false)
    (hsent : entry.sent? = none) : waiting (entry :: past) = waiting past := by
  simp [waiting, hprepared, hwithdraws, hsent]

theorem exists_of_waiting {past : List (Entry σ)} {batch : PendingBatch}
    (h : waiting past = some batch) :
    ∃ mid entry before, past = mid ++ entry :: before ∧ entry.prepared? = some batch ∧
      ∀ e ∈ mid, e.prepared? = none ∧ e.withdraws = false ∧ e.sent? = none := by
  induction past with
  | nil => cases h
  | cons entry past ih =>
    unfold waiting at h
    cases hprepared : entry.prepared? with
    | some prepared =>
      rw [hprepared] at h
      exact ⟨[], entry, past, rfl, hprepared.trans h, fun _ hmem => (by cases hmem)⟩
    | none =>
      rw [hprepared] at h
      dsimp only at h
      split at h
      · cases h
      · rename_i hkept
        obtain ⟨mid, prepared, before, rfl, hentry, hmid⟩ := ih h
        refine ⟨entry :: mid, prepared, before, rfl, hentry, ?_⟩
        rw [List.forall_mem_cons]
        refine ⟨?_, hmid⟩
        simpa [hprepared] using hkept

/-- Nothing is prepared and sent at once. -/
theorem Entry.sent?_of_prepared? {entry : Entry σ} {batch : PendingBatch}
    (h : entry.prepared? = some batch) : entry.sent? = none := by
  obtain ⟨office, event⟩ := entry
  cases event with
  | advance today place => rfl
  | command today command =>
    cases command with
    | requestBatch action price => rfl
    | _ => cases h

/-- What waits although a batch was sent was prepared after that. -/
theorem exists_prepared_of_waiting {mid early : List (Entry σ)} {entry : Entry σ}
    {batch : PendingBatch} (h : waiting (mid ++ entry :: early) = some batch)
    (hsent : entry.sent?.isSome = true) : ∃ e ∈ mid, e.prepared?.isSome = true := by
  induction mid with
  | nil =>
    obtain ⟨sent, hsome⟩ := Option.isSome_iff_exists.1 hsent
    cases hprepared : entry.prepared? with
    | some prepared =>
      rw [Entry.sent?_of_prepared? hprepared] at hsome
      cases hsome
    | none =>
      rw [List.nil_append, waiting_of_sent hprepared hsome] at h
      cases h
  | cons last mid ih =>
    cases hprepared : last.prepared? with
    | some prepared => exact ⟨last, List.mem_cons_self, by rw [hprepared]; rfl⟩
    | none =>
      have hrest : waiting (mid ++ entry :: early) = some batch := by
        simp only [List.cons_append, waiting, hprepared] at h
        split at h
        · cases h
        · exact h
      obtain ⟨e, hmem, he⟩ := ih hrest
      exact ⟨e, List.mem_cons_of_mem last hmem, he⟩

end Histories

/-! ## The invariant -/

section Faithful

variable {σ : Type}

/-- The changes made and those left are those of the batches sent, and the batch that waits is the
one that the history leads to. -/
structure Faithful (office : Office (σ × List Call)) (past : List (Entry (σ × List Call))) :
    Prop where
  accounted : office.desk.Accounted office.errands
  calls : office.world.server.2.filter Call.isMutation ++
    office.underway.flatMap JobState.left = (sent past).flatMap PendingBatch.calls
  pending : office.desk.pending = waiting past
  fitting : office.desk.Fitting
  prepared : ∀ batch ∈ sent past, batch.WellPrepared

/-- What waits after a command is what the history with it leads to. -/
theorem batchingAfter_fst {office : Office σ} {past : List (Entry σ)}
    (h : office.desk.pending = waiting past) (today : Date) (command : Command) :
    (office.desk.batchingAfter command).1 = waiting (⟨office, .command today command⟩ :: past) := by
  have hsent : (⟨office, .command today command⟩ : Entry σ).sent? = office.desk.sent? command := rfl
  cases command with
  | requestBatch action price =>
    have hentry : (⟨office, .command today (.requestBatch action price)⟩ : Entry σ).prepared? =
        (office.desk.grid.prepareBatch action price).toOption := rfl
    unfold Desk.batchingAfter
    dsimp only
    cases hprepare : office.desk.grid.prepareBatch action price with
    | error error =>
      rw [hprepare] at hentry
      rw [waiting_of_kept hentry rfl rfl]
      exact h
    | ok batch =>
      rw [hprepare] at hentry
      exact (waiting_of_prepared hentry).symm
  | confirmBatch =>
    unfold Desk.batchingAfter
    unfold Desk.sent? at hsent
    dsimp only at hsent ⊢
    split at hsent
    · rename_i hrunning
      rw [if_pos hrunning, waiting_of_kept rfl rfl hsent]
      exact h
    · rename_i hidle
      rw [if_neg hidle]
      cases hpending : office.desk.pending with
      | none =>
        rw [waiting_of_kept rfl rfl (hsent.trans hpending), ← h]
        exact hpending.symm
      | some batch => exact (waiting_of_sent rfl (hsent.trans hpending)).symm
  | showSection target => rfl
  | cancelBatch => rfl
  | _ => exact h

/-- At most one of the jobs under way has changes left to make. -/
theorem left_eq_nil_of_batch {office : Office σ} {early late : List JobState} {state : JobState}
    (h : office.desk.Accounted office.errands) (found : office.underway = early ++ state :: late)
    (hbatch : state.errand = .batch) : early.flatMap JobState.left = [] := by
  have hcount := h.batch
  unfold errands at hcount
  rw [found, List.map_append, List.map_cons, hbatch, List.count_append, List.count_cons_self]
    at hcount
  apply JobState.flatMap_left_eq_nil
  split at hcount <;> omega

theorem Entry.pending_of_sent? {entry : Entry σ} {batch : PendingBatch}
    (h : entry.sent? = some batch) :
    entry.before.desk.pending = some batch ∧ entry.before.desk.batchRunning = false := by
  obtain ⟨office, event⟩ := entry
  cases event with
  | command today command => exact Desk.pending_of_sent? h
  | advance today place => cases h

/-- A batch that is sent was prepared. -/
theorem wellPrepared_of_sent? {office : Office σ} (h : office.desk.Fitting) {command : Command}
    {batch : PendingBatch} (hsent : office.desk.sent? command = some batch) :
    batch.WellPrepared :=
  (h batch (Desk.pending_of_sent? hsent).1).1

/-- A step of a job leaves the changes made and those left together as they were. -/
theorem Faithful.calls_advance {node : Node σ} {office : Office (σ × List Call)}
    {past : List (Entry (σ × List Call))} (h : Faithful office past) (today : Date)
    {early late : List JobState} {state : JobState}
    (found : office.underway = early ++ state :: late) :
    (state.advance node.logged today office.world).2.server.2.filter Call.isMutation ++
        (early ++ (state.advance node.logged today office.world).1 :: late).flatMap
          JobState.left = (sent past).flatMap PendingBatch.calls := by
  obtain ⟨made, hmade, hleft⟩ := state.exists_made node today office.world
  generalize state.advance node.logged today office.world = step at hmade hleft
  have hcalls := h.calls
  rw [found] at hcalls
  rw [hmade, List.filter_append]
  by_cases hbatch : state.errand = .batch
  · -- No job before this one has changes left, so its changes follow those made.
    have hearly := left_eq_nil_of_batch h.accounted found hbatch
    calc office.world.server.2.filter Call.isMutation ++ made.filter Call.isMutation ++
          (early ++ step.1 :: late).flatMap JobState.left
        = office.world.server.2.filter Call.isMutation ++
            (made.filter Call.isMutation ++ step.1.left ++ late.flatMap JobState.left) := by
          rw [List.flatMap_append, hearly, List.flatMap_cons, List.nil_append,
            List.append_assoc, List.append_assoc]
      _ = office.world.server.2.filter Call.isMutation ++
            (early ++ state :: late).flatMap JobState.left := by
          rw [hleft, List.flatMap_append, hearly, List.flatMap_cons, List.nil_append]
      _ = (sent past).flatMap PendingBatch.calls := hcalls
  · -- It changes nothing, and has nothing left to change.
    rw [state.left_eq_nil hbatch, List.append_eq_nil_iff] at hleft
    rw [hleft.1, List.append_nil, ← hcalls, List.flatMap_append, List.flatMap_append,
      List.flatMap_cons, List.flatMap_cons, hleft.2, state.left_eq_nil hbatch]

/-- Every rule keeps the changes those of the batches sent. -/
theorem Faithful.step {node : Node σ} {office office' : Office (σ × List Call)}
    {past : List (Entry (σ × List Call))} {event : Event} (h : Faithful office past)
    (hstep : Step node.logged office event office') :
    Faithful office' (⟨office, event⟩ :: past) := by
  have haccounted := accounted_step h.accounted hstep
  cases hstep with
  | command today command =>
    have hparts := office.desk.handle_parts today command
    have hentry : (⟨office, .command today command⟩ : Entry (σ × List Call)).sent? =
        office.desk.sent? command := rfl
    refine ⟨haccounted, ?_, ?_, h.fitting.handle today command, ?_⟩
    · rw [sent_cons, hentry, List.flatMap_append, List.flatMap_append, ← h.calls,
        hparts.flatMap_left, List.append_assoc]
      cases hsent : office.desk.sent? command with
      | none => rfl
      | some batch =>
        simp only [Option.toList_some, List.flatMap_cons, List.flatMap_nil, PendingBatch.calls,
          (wellPrepared_of_sent? h.fitting hsent).files]
    · rw [← batchingAfter_fst h.pending today command, ← hparts.batching]
      rfl
    · intro batch hmem
      rw [sent_cons, List.mem_append, Option.mem_toList] at hmem
      rcases hmem with hmem | hsent
      · exact h.prepared batch hmem
      · exact wellPrepared_of_sent? h.fitting hsent
  | advance today early late state found =>
    exact ⟨haccounted, h.calls_advance today found, h.pending, h.fitting, h.prepared⟩
  | report today early late report found =>
    have hparts := office.desk.receive_parts report
    refine ⟨haccounted, ?_, ?_, h.fitting.receive report, h.prepared⟩
    · have hcalls := h.calls
      rw [found, List.flatMap_append, List.flatMap_cons] at hcalls
      rw [List.flatMap_append, hparts.flatMap_left, List.flatMap_append]
      simp only [JobState.left, List.nil_append] at hcalls
      simp only [Option.toList_none, List.flatMap_nil, List.append_nil]
      exact hcalls
    · have hpending : (office.desk.batchingReported report).1 = office.desk.pending := by
        cases report <;> rfl
      exact (congrArg Prod.fst hparts.batching).trans (hpending.trans h.pending)
  | nothing today place => exact ⟨haccounted, h.calls, h.pending, h.fitting, h.prepared⟩

theorem faithful_history (node : Node σ) (target : Section) (server : σ) (directory : Directory)
    (past : List Event) :
    Faithful (after node.logged (opened target ⟨(server, []), directory⟩) past)
      (history node.logged (opened target ⟨(server, []), directory⟩) past) := by
  induction past with
  | nil =>
    refine ⟨accounted_opened target _, rfl, rfl, ?_, ?_⟩
    · intro batch hpending
      cases hpending
    · intro batch hmem
      cases hmem
  | cons event past ih => exact ih.step (step_perform node.logged _ event)

/-- A change is one of a batch that was sent, and this was prepared where the change is allowed. -/
theorem Faithful.isMutable {office : Office (σ × List Call)} {past : List (Entry (σ × List Call))}
    (h : Faithful office past) {call : Call} (hcall : call ∈ office.world.server.2)
    {target : Section} (hchanged : call.changed? = some target) : target.isMutable = true := by
  have hmutation : call.isMutation = true := by
    cases call with
    | add | delete => rfl
    | _ => cases hchanged
  have hmem : call ∈ office.world.server.2.filter Call.isMutation ++
      office.underway.flatMap JobState.left :=
    List.mem_append_left _ (List.mem_filter.2 ⟨hcall, hmutation⟩)
  rw [h.calls, List.mem_flatMap] at hmem
  obtain ⟨batch, hsent, hbatch⟩ := hmem
  exact (h.prepared batch hsent).isMutable hbatch hchanged

end Faithful

/-! ## All runs -/

variable {σ : Type}

/-- What an entry found is what the events before it lead to. -/
theorem exists_of_history_eq {node : Node σ} {office : Office σ} {past : List Event}
    {late early : List (Entry σ)} {entry : Entry σ}
    (h : history node office past = late ++ entry :: early) :
    ∃ before, entry.before = after node office before ∧ early = history node office before := by
  induction past generalizing late with
  | nil => cases late <;> cases h
  | cons event past ih =>
    cases late with
    | nil =>
      obtain ⟨rfl, rfl⟩ := List.cons.inj h
      exact ⟨past, rfl, rfl⟩
    | cons last late =>
      obtain ⟨-, hrest⟩ := List.cons.inj h
      exact ih hrest

/-- A batch that is sent is the one that the history before leads to. -/
theorem waiting_of_history {node : Node σ} {target : Section} {server : σ} {directory : Directory}
    {past : List Event} {late early : List (Entry (σ × List Call))}
    {entry : Entry (σ × List Call)} {batch : PendingBatch}
    (hpast : history node.logged (opened target ⟨(server, []), directory⟩) past =
      late ++ entry :: early) (hsent : entry.sent? = some batch) :
    batch.WellPrepared ∧ waiting early = some batch := by
  obtain ⟨before, hbefore, rfl⟩ := exists_of_history_eq hpast
  have hearly := faithful_history node target server directory before
  rw [← hbefore] at hearly
  have hpending := (Entry.pending_of_sent? hsent).1
  exact ⟨(hearly.fitting batch hpending).1, hearly.pending ▸ hpending⟩

/-- What was confirmed is what is sent, as the history of an office tells it. -/
structure SentAsConfirmed (office : Office (σ × List Call))
    (past : List (Entry (σ × List Call))) : Prop where
  /-- The changes made so far and those that are left are those of the batches sent, in order. -/
  calls : office.world.server.2.filter Call.isMutation ++
    office.underway.flatMap JobState.left = (sent past).flatMap PendingBatch.calls
  /-- Only a running batch has changes left. -/
  finished : office.desk.batchRunning = false → office.underway.flatMap JobState.left = []
  /-- A batch that is sent is the one that was prepared last, and it was neither withdrawn nor sent
  since then. -/
  prepared : ∀ late entry early batch, past = late ++ entry :: early →
    entry.sent? = some batch → batch.action.isMutation = true ∧
      ∃ mid preparation before, early = mid ++ preparation :: before ∧
        preparation.prepared? = some batch ∧
        ∀ e ∈ mid, e.prepared? = none ∧ e.withdraws = false ∧ e.sent? = none
  /-- Between two batches that are sent another one was prepared, so none is sent twice. -/
  once : ∀ late later mid earlier early, past = late ++ later :: (mid ++ earlier :: early) →
    later.sent?.isSome = true → earlier.sent?.isSome = true →
      ∃ e ∈ mid, e.prepared?.isSome = true
  /-- A batch that waits is of the section shown. -/
  origin : ∀ batch, office.desk.pending = some batch → batch.origin = office.desk.grid.current
  /-- No change is made to a section that cannot be changed. -/
  isMutable : ∀ call ∈ office.world.server.2, ∀ target, call.changed? = some target →
    Http.requireMutable target = .ok ()

/-- In every run of an office, whatever the node answers and whatever comes between, the changes
made to the collections are exactly those of the batches that were confirmed while none was running:
for each file of the receipt one call, in order, though others fail. Each batch is the one prepared
last, and is sent once at most. Driving the desk is such a run (`Reaches.drive`). -/
theorem sent_as_confirmed (node : Node σ) (target : Section) (server : σ)
    (directory : Directory) (past : List Event) :
    SentAsConfirmed (after node.logged (opened target ⟨(server, []), directory⟩) past)
      (history node.logged (opened target ⟨(server, []), directory⟩) past) := by
  have h := faithful_history node target server directory past
  refine ⟨h.calls, ?_, ?_, ?_, ?_, ?_⟩
  · intro hidle
    apply JobState.flatMap_left_eq_nil
    have hcount := h.accounted.batch
    rwa [hidle, if_neg Bool.false_ne_true] at hcount
  · intro late entry early batch hpast hsent
    obtain ⟨hprepared, hlast⟩ := waiting_of_history hpast hsent
    exact ⟨hprepared.isMutation, exists_of_waiting hlast⟩
  · intro late later mid earlier early hpast hlater hearlier
    obtain ⟨batch, hsent⟩ := Option.isSome_iff_exists.1 hlater
    exact exists_prepared_of_waiting (waiting_of_history hpast hsent).2 hearlier
  · intro batch hpending
    exact (h.fitting batch hpending).2
  · intro call hcall changed hchanged
    exact if_pos (h.isMutable hcall hchanged)

/-- A node that lists two files and refuses everything else. -/
def stubborn : Node Unit := fun call _ => match call with
  | .list _ => (.ok [.bare "a1" "song.mp3", .bare "b2" "film.mp4"], ())
  | .add _ _ | .delete _ _ | .findProviders _ | .requestMetadata _ _ | .download _ _ _ | .wallet =>
    (.error (.transport "refused"), ())

/-- Both files are to be deleted. The first call is refused, and the user moves away before the
second one is made. -/
def deletion : List Event :=
  [.advance default 0, .command default (.showSection .saved), .advance default 0,
    .advance default 0, .command default .confirmBatch,
    .command default (.requestBatch .delete none), .command default (.toggleRow "b2"),
    .command default (.toggleRow "a1"), .advance default 0, .advance default 0]

example : (after stubborn.logged (opened .hosting ⟨((), []), .absent ""⟩) deletion).world.server.2 =
    [.list .hosting, .delete .hosting "a1", .delete .hosting "b2"] := by decide

end Office

end FileMarket
