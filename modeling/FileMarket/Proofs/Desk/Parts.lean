import FileMarket.Desk.Report
import FileMarket.Proofs.Grid.Attendance
import FileMarket.Proofs.Negotiation.Attendance

/-!
# The parts of the desk

The desk does nothing to its grid and its negotiation but what these can do themselves: each command
and each report is a short run of their events, and the jobs it starts are the loads and the
requests that this run asks for, or the batch that is sent (`Desk.Parts`, `Desk.handle_parts`,
`Desk.receive_parts`). So what holds in all runs of a grid or a negotiation holds at the desk.
-/

set_option autoImplicit false

namespace FileMarket

/-- What a command does to the grid. -/
def Command.gridEvents (today : Date) : Command → List Grid.Event
  | .showSection target => [.switchTo target]
  | .refresh => [.refresh]
  | .setFilter field tag => [.setFilter field tag]
  | .clearFilters => [.clearFilters]
  | .clickColumn column => [.clickColumn column]
  | .setSort spec => [.setSort spec]
  | .toggleRow hash => [.toggleRow hash]
  | .toggleAll => [.toggleAll today]
  | _ => []

/-- The job that carries out a batch. -/
def PendingBatch.job (batch : PendingBatch) : Job := .batch batch.action batch.origin batch.records

namespace Desk

/-- What a command does to the negotiation, the latest event first. A purchase that is refused while
the balance is not known is followed by a request for the wallet. -/
def negotiationEvents (desk : Desk) : Command → List Negotiation.Event
  | .requestBatch .download _ => match desk.grid.downloadTarget with
    | .ok record => [.start (some record.hash)]
    | .error _ => []
  | .openNegotiation hash => [.start hash]
  | .submitHash hash => [.move (.submit hash)]
  | .refreshPeers => [.move .refreshPeers]
  | .refreshWallet => [.move .refreshWallet]
  | .selectPeer peer => [.move (.selectPeer peer)]
  | .confirmPurchase => match desk.negotiation.confirm with
    | (_, .ok _) => [.move .confirm]
    | (negotiation, .error _) =>
      if negotiation.balance.isSome then [.move .confirm]
      else [.move .refreshWallet, .move .confirm]
  | .declinePurchase => [.move .decline]
  | .closeNegotiation => [.close]
  | _ => []

/-- The batch that a command sends: the one that waits for confirmation, unless one is running. -/
def sent? (desk : Desk) : Command → Option PendingBatch
  | .confirmBatch => if desk.batchRunning then none else desk.pending
  | _ => none

/-- The batch that waits for confirmation, and whether one is running. -/
def batching (desk : Desk) : Option PendingBatch × Bool := (desk.pending, desk.batchRunning)

/-- What a command makes of the batches. -/
def batchingAfter (desk : Desk) : Command → Option PendingBatch × Bool
  | .showSection _ | .cancelBatch => (none, desk.batchRunning)
  | .confirmBatch =>
    if desk.batchRunning then desk.batching else (none, desk.pending.isSome)
  | .requestBatch action price => match desk.grid.prepareBatch action price with
    | .ok batch => (some batch, desk.batchRunning)
    | .error _ => desk.batching
  | _ => desk.batching

/-- What a report does to the grid, the latest event first. -/
def reportedToGrid (desk : Desk) : Report → List Grid.Event
  | .loaded token result => [.finishLoad token result]
  | .batchFinished _ origin _ =>
    if desk.grid.current = origin then [.reload, .clearSelection] else []
  | .transferFinished ticket (.ok saved) =>
    if desk.negotiation.awaits .transferring ticket ∧ desk.grid.current = .purchased then
      [.append saved.record]
    else []
  | _ => []

/-- What a report does to the negotiation. -/
def reportedToNegotiation : Report → List Negotiation.Event
  | .walletLoaded epoch result => [.wallet epoch result]
  | .peersLoaded ticket result => [.answer ticket (.providers result)]
  | .metadataLoaded ticket result => [.answer ticket (.metadata result)]
  | .transferFinished ticket result => [.answer ticket (.transfer result)]
  | .loaded _ _ | .batchFinished _ _ _ => []

/-- What a report makes of the batches. -/
def batchingReported (desk : Desk) : Report → Option PendingBatch × Bool
  | .batchFinished _ _ _ => (desk.pending, false)
  | _ => desk.batching

/-- A step of the desk, taken apart: what it does to the grid and to the negotiation, the batch that
it sends, what it makes of the batches, and the jobs that come of it all. -/
structure Parts (desk : Desk) (onGrid : List Grid.Event) (onNegotiation : List Negotiation.Event)
    (sent : Option PendingBatch) (batching : Option PendingBatch × Bool) (result : Stepped) :
    Prop where
  grid : result.1.grid = Grid.after desk.grid onGrid
  negotiation : result.1.negotiation = Negotiation.after desk.negotiation onNegotiation
  batching : result.1.batching = batching
  jobs : result.2 = (Grid.issued (Grid.history desk.grid onGrid)).map .load ++
    sent.toList.map PendingBatch.job ++
    (Negotiation.requested (Negotiation.history desk.negotiation onNegotiation)).map .request

namespace Parts

variable {desk : Desk} {batching : Option PendingBatch × Bool} {result : Stepped}

/-- A step that touches neither grid nor negotiation and starts no job. -/
theorem aside (hgrid : result.1.grid = desk.grid)
    (hnegotiation : result.1.negotiation = desk.negotiation)
    (hbatching : result.1.batching = batching) (hjobs : result.2 = []) :
    Parts desk [] [] none batching result :=
  ⟨hgrid, hnegotiation, hbatching, hjobs⟩

/-- One event of the grid. -/
theorem onGrid {event : Grid.Event} {step : Grid × Grid.Response}
    (hperform : desk.grid.perform event = step) (hgrid : result.1.grid = step.1)
    (hnegotiation : result.1.negotiation = desk.negotiation)
    (hbatching : result.1.batching = batching)
    (hjobs : result.2 = (Grid.issued [⟨event, step.2⟩]).map .load) :
    Parts desk [event] [] none batching result := by
  subst hperform
  refine ⟨hgrid, hnegotiation, hbatching, ?_⟩
  show result.2 = (_ ++ []) ++ []
  rw [hjobs, List.append_nil, List.append_nil]
  rfl

/-- One event of the negotiation. -/
theorem onNegotiation {event : Negotiation.Event} {step : Negotiation × Negotiation.Response}
    (hperform : desk.negotiation.perform event = step) (hgrid : result.1.grid = desk.grid)
    (hnegotiation : result.1.negotiation = step.1) (hbatching : result.1.batching = batching)
    (hjobs : result.2 = step.2.requests.map .request) :
    Parts desk [] [event] none batching result := by
  subst hperform
  refine ⟨hgrid, hnegotiation, hbatching, ?_⟩
  show result.2 = (_ ++ []).map Job.request
  rw [hjobs, List.append_nil]
  rfl

/-- Two steps of the negotiation, of which the first starts no job. -/
theorem andThen {earlier later : List Negotiation.Event} {first second : Stepped}
    (hfirst : Parts desk [] earlier none desk.batching first) (hjobs : first.2 = [])
    (hsecond : Parts first.1 [] later none first.1.batching second) :
    Parts desk [] (later ++ earlier) none desk.batching second where
  grid := hsecond.grid.trans hfirst.grid
  negotiation := by rw [Negotiation.after_append, ← hfirst.negotiation, hsecond.negotiation]
  batching := hsecond.batching.trans hfirst.batching
  jobs := by
    have hnone : (Negotiation.requested (Negotiation.history desk.negotiation earlier)).map
        Job.request = [] := hfirst.jobs.symm.trans hjobs
    rw [hsecond.jobs, Negotiation.history_append, ← hfirst.negotiation]
    unfold Negotiation.requested at hnone ⊢
    rw [List.flatMap_append, List.map_append, hnone, List.append_nil]
    rfl

end Parts

/-! ## Commands -/

theorem putGrid_parts (desk : Desk) (event : Grid.Event) (result : Outcome Grid)
    (hperform : desk.grid.perform event = desk.grid.put result) :
    Parts desk [event] [] none desk.batching (desk.putGrid result) := by
  cases result with
  | ok grid => exact .onGrid hperform rfl rfl rfl rfl
  | error error => exact .onGrid hperform rfl rfl rfl rfl

theorem putNegotiation_parts (desk : Desk) (move : Negotiation.Move) (step : Negotiation.Stepped)
    (hmake : desk.negotiation.make move = Negotiation.respond step) :
    Parts desk [] [.move move] none desk.batching (desk.putNegotiation step) := by
  obtain ⟨n, error | request⟩ := step
  · exact .onNegotiation hmake rfl rfl rfl rfl
  · exact .onNegotiation hmake rfl rfl rfl rfl

theorem refresh_parts (desk : Desk) (today : Date) :
    Parts desk [.refresh] [] none desk.batching (desk.handle today .refresh) := by
  unfold handle
  cases hrefresh : desk.grid.refresh? with
  | none =>
    have hperform : desk.grid.perform .refresh = (desk.grid, .withheld) := by
      simp only [Grid.perform, hrefresh]
    exact .onGrid hperform rfl rfl rfl rfl
  | some step =>
    have hperform : desk.grid.perform .refresh = (step.1, .issued step.2) := by
      simp only [Grid.perform, hrefresh]
    exact .onGrid hperform rfl rfl rfl rfl

theorem openNegotiation_parts (desk : Desk) (hash : Option String) :
    Parts desk [] [.start hash] none desk.batching (desk.openNegotiation hash) := by
  have hperform : desk.negotiation.perform (.start hash) =
      ((desk.negotiation.start hash).1, .made (desk.negotiation.start hash).2) := rfl
  unfold openNegotiation
  generalize desk.negotiation.start hash = step at hperform ⊢
  obtain ⟨n, requests⟩ := step
  exact .onNegotiation hperform rfl rfl rfl rfl

/-- A batch is prepared without a look at anything but the grid, and then takes the place of the one
that waits. -/
theorem prepareBatch_parts (desk : Desk) (action : Action) (price : Option String) :
    Parts desk [] [] none (desk.batchingAfter (.requestBatch action price))
      ({ desk with info := none }.prepareBatch action price) := by
  unfold prepareBatch batchingAfter
  dsimp only
  cases desk.grid.prepareBatch action price with
  | ok batch => exact .aside rfl rfl rfl rfl
  | error error => exact .aside rfl rfl rfl rfl

/-- Only an action that changes a collection is prepared. -/
theorem batchingAfter_of_not_isMutation (desk : Desk) {action : Action}
    (h : action.isMutation = false) (price : Option String) :
    desk.batchingAfter (.requestBatch action price) = desk.batching := by
  have hprepare : desk.grid.prepareBatch action price =
      .error (.unavailable (action.label ++ " does not need a confirmation")) := by
    unfold Grid.prepareBatch
    rw [h]
    rfl
  unfold batchingAfter
  dsimp only
  rw [hprepare]

theorem requestBatch_parts (desk : Desk) (action : Action) (price : Option String) :
    Parts desk [] (desk.negotiationEvents (.requestBatch action price)) none
      (desk.batchingAfter (.requestBatch action price)) (desk.requestBatch action price) := by
  cases action with
  | info =>
    rw [desk.batchingAfter_of_not_isMutation rfl price]
    unfold requestBatch
    dsimp only
    split <;> exact .aside rfl rfl rfl rfl
  | download =>
    rw [desk.batchingAfter_of_not_isMutation rfl price]
    unfold requestBatch negotiationEvents
    dsimp only
    cases desk.grid.downloadTarget with
    | ok record =>
      have h := { desk with info := none }.openNegotiation_parts (some record.hash)
      show Parts desk [] [.start (some record.hash)] none desk.batching
        ({ desk with info := none }.openNegotiation (some record.hash))
      exact ⟨h.grid, h.negotiation, h.batching, h.jobs⟩
    | error error => exact .aside rfl rfl rfl rfl
  | host => exact desk.prepareBatch_parts .host price
  | share => exact desk.prepareBatch_parts .share price
  | delete => exact desk.prepareBatch_parts .delete price

theorem confirmBatch_parts (desk : Desk) :
    Parts desk [] [] (desk.sent? .confirmBatch) (desk.batchingAfter .confirmBatch)
      desk.confirmBatch := by
  unfold confirmBatch sent? batchingAfter
  cases hrunning : desk.batchRunning with
  | true => exact .aside rfl rfl rfl rfl
  | false =>
    cases hpending : desk.pending with
    | none => exact .aside rfl rfl (Prod.ext hpending hrunning) rfl
    | some batch => exact ⟨rfl, rfl, rfl, rfl⟩

theorem cancelBatch_parts (desk : Desk) (today : Date) :
    Parts desk [] [] none (none, desk.batchRunning) (desk.handle today .cancelBatch) := by
  unfold handle
  cases hpending : desk.pending with
  | none => exact .aside rfl rfl (Prod.ext hpending rfl) rfl
  | some batch => exact .aside rfl rfl rfl rfl

theorem confirmPurchase_parts (desk : Desk) :
    Parts desk [] (desk.negotiationEvents .confirmPurchase) none desk.batching
      desk.confirmPurchase := by
  have hmake : desk.negotiation.make .confirm = Negotiation.respond desk.negotiation.confirm := rfl
  unfold confirmPurchase negotiationEvents
  rcases hstep : desk.negotiation.confirm with ⟨n, error | request⟩
  · rw [hstep] at hmake
    have hfirst := desk.putNegotiation_parts .confirm (n, .error error) hmake
    cases hbalance : n.balance with
    | some balance =>
      simp only [hbalance, Option.isSome_some, if_true]
      exact hfirst
    | none =>
      -- The refused confirmation is the first event, the request for the wallet the second.
      simp only [hbalance, Option.isSome_none, Bool.false_eq_true, if_false]
      show Parts desk [] ([.move .refreshWallet] ++ [.move .confirm]) none _ _
      refine hfirst.andThen rfl ?_
      have hwallet : n.make .refreshWallet = Negotiation.respond n.refreshWallet := rfl
      rcases hstep' : n.refreshWallet with ⟨n', error' | request⟩
      · obtain rfl := Negotiation.refreshWallet_of_error hstep'
        rw [hstep'] at hwallet
        exact .onNegotiation hwallet rfl rfl rfl rfl
      · rw [hstep'] at hwallet
        exact .onNegotiation hwallet rfl rfl rfl rfl
  · rw [hstep] at hmake
    exact desk.putNegotiation_parts .confirm (n, .ok request) hmake

theorem declinePurchase_parts (desk : Desk) (today : Date) :
    Parts desk [] [.move .decline] none desk.batching (desk.handle today .declinePurchase) := by
  unfold handle
  rcases hstep : desk.negotiation.decline with ⟨n, error | ⟨⟩⟩
  · have hmake : desk.negotiation.make .decline = (n, .refused error) := by
      simp only [Negotiation.make, hstep]
    exact .onNegotiation hmake rfl rfl rfl rfl
  · have hmake : desk.negotiation.make .decline = (n, .made []) := by
      simp only [Negotiation.make, hstep]
    exact .onNegotiation hmake rfl rfl rfl rfl

/-- Each command, taken apart. -/
theorem handle_parts (desk : Desk) (today : Date) (command : Command) :
    Parts desk (command.gridEvents today) (desk.negotiationEvents command) (desk.sent? command)
      (desk.batchingAfter command) (desk.handle today command) := by
  cases command with
  | showSection target => exact .onGrid rfl rfl rfl rfl rfl
  | refresh => exact desk.refresh_parts today
  | setFilter field tag => exact desk.putGrid_parts (.setFilter field tag) _ rfl
  | clearFilters => exact .onGrid rfl rfl rfl rfl rfl
  | clickColumn column => exact desk.putGrid_parts (.clickColumn column) _ rfl
  | setSort spec => exact desk.putGrid_parts (.setSort spec) _ rfl
  | toggleRow hash => exact desk.putGrid_parts (.toggleRow hash) _ rfl
  | toggleAll => exact .onGrid rfl rfl rfl rfl rfl
  | requestBatch action price => exact desk.requestBatch_parts action price
  | confirmBatch => exact desk.confirmBatch_parts
  | cancelBatch => exact desk.cancelBatch_parts today
  | closeInfo => exact .aside rfl rfl rfl rfl
  | openNegotiation hash => exact desk.openNegotiation_parts hash
  | submitHash hash => exact desk.putNegotiation_parts (.submit hash) _ rfl
  | refreshPeers => exact desk.putNegotiation_parts .refreshPeers _ rfl
  | refreshWallet => exact desk.putNegotiation_parts .refreshWallet _ rfl
  | selectPeer peer => exact desk.putNegotiation_parts (.selectPeer peer) _ rfl
  | confirmPurchase => exact desk.confirmPurchase_parts
  | declinePurchase => exact desk.declinePurchase_parts today
  | closeNegotiation => exact .onNegotiation rfl rfl rfl rfl rfl

/-! ## Reports -/

theorem loaded_parts (desk : Desk) (token : LoadToken) (result : Outcome (List FileRecord)) :
    Parts desk [.finishLoad token result] [] none desk.batching (desk.loaded token result, []) := by
  have hperform : desk.grid.perform (.finishLoad token result) =
      ((desk.grid.finishLoad token result).1, .received (desk.grid.finishLoad token result).2) :=
    rfl
  have hrule := Grid.transition_finishLoad desk.grid token result
  unfold loaded
  rcases hstep : desk.grid.finishLoad token result with ⟨grid, reception⟩
  rw [hstep] at hperform hrule
  cases reception with
  | accepted => exact .onGrid hperform rfl rfl rfl rfl
  | stale =>
    obtain rfl := hrule.eq_of_isRefusal rfl
    exact .onGrid hperform rfl rfl rfl rfl

theorem batchFinished_parts (desk : Desk) (action : Action) (origin : Section)
    (results : BatchResults) :
    Parts desk (desk.reportedToGrid (.batchFinished action origin results)) [] none
      (desk.pending, false) (desk.batchFinished action origin results) := by
  unfold batchFinished reportedToGrid
  by_cases hshown : desk.grid.current = origin
  · simp only [hshown, ne_eq, not_true_eq_false, if_false, if_true]
    exact ⟨rfl, rfl, rfl, rfl⟩
  · simp only [hshown, ne_eq, not_false_eq_true, if_true, if_false]
    exact .aside rfl rfl rfl rfl

/-- A transfer that is waited for may add a row to the history of purchases. -/
theorem transferFinished_parts (desk : Desk) (ticket : Ticket) (result : Outcome SavedFile) :
    Parts desk (desk.reportedToGrid (.transferFinished ticket result))
      [.answer ticket (.transfer result)] none desk.batching
      (desk.transferFinished ticket result, []) := by
  have hnegotiation : desk.negotiation.perform (.answer ticket (.transfer result)) =
      ((desk.negotiation.transferFinished ticket result).1,
        .received (desk.negotiation.transferFinished ticket result).2) := rfl
  cases hawaits : desk.negotiation.awaits .transferring ticket with
  | false =>
    have hstale : desk.negotiation.transferFinished ticket result = (desk.negotiation, .stale) :=
      if_pos (by rw [hawaits]; rfl)
    have hgrid : desk.reportedToGrid (.transferFinished ticket result) = [] := by
      cases result <;> simp [reportedToGrid, hawaits]
    rw [hgrid, transferFinished]
    rw [hstale] at hnegotiation ⊢
    exact .onNegotiation hnegotiation rfl rfl rfl rfl
  | true =>
    obtain ⟨n, haccepted⟩ :
        ∃ n, desk.negotiation.transferFinished ticket result = (n, .accepted) := by
      unfold Negotiation.transferFinished
      rw [hawaits]
      cases result <;> exact ⟨_, rfl⟩
    unfold transferFinished
    rw [haccepted] at hnegotiation ⊢
    -- Neither the answer nor a row that is added starts a job.
    have hanswer : Parts desk [] [.answer ticket (.transfer result)] none desk.batching
        ({ desk with negotiation := n }, []) := .onNegotiation hnegotiation rfl rfl rfl rfl
    cases result with
    | error error => exact ⟨rfl, hanswer.negotiation, rfl, hanswer.jobs⟩
    | ok saved =>
      simp only [reportedToGrid, hawaits, withPurchase, true_and]
      by_cases hshown : desk.grid.current = .purchased
      · rw [if_pos hshown, if_pos hshown]
        exact ⟨rfl, hanswer.negotiation, rfl, hanswer.jobs⟩
      · rw [if_neg hshown, if_neg hshown]
        exact ⟨rfl, hanswer.negotiation, rfl, hanswer.jobs⟩

/-- Each report, taken apart. -/
theorem receive_parts (desk : Desk) (report : Report) :
    Parts desk (desk.reportedToGrid report) (reportedToNegotiation report) none
      (desk.batchingReported report) (desk.receive report) := by
  cases report with
  | loaded token result => exact desk.loaded_parts token result
  | batchFinished action origin results => exact desk.batchFinished_parts action origin results
  | walletLoaded epoch result => exact .onNegotiation rfl rfl rfl rfl rfl
  | peersLoaded ticket result => exact .onNegotiation rfl rfl rfl rfl rfl
  | metadataLoaded ticket result => exact .onNegotiation rfl rfl rfl rfl rfl
  | transferFinished ticket result => exact desk.transferFinished_parts ticket result

end Desk

end FileMarket
