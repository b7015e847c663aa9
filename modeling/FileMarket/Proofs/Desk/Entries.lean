import FileMarket.Proofs.Desk.Batches
import FileMarket.Proofs.Desk.Idle

/-!
# What an entry does

An entry of an office's history is a short run of events for the grid and for the negotiation, and
starts the jobs that these ask for (`Entry.parts`). Put together, the entries of a history are one
run of the grid and one of the negotiation (`grid_after`, `negotiation_after`), so what holds in all
runs of either holds in every office. A job that is under way was so before, or has just gone on, or
is one that the entry has started (`mem_underway_perform`).
-/

set_option autoImplicit false

namespace FileMarket

namespace Negotiation

/-- Every request of a history was made by one of its events. -/
theorem exists_of_mem_requested {n : Negotiation} {past : List Event} {request : Request}
    (h : request ∈ requested (history n past)) :
    ∃ late event early, past = late ++ event :: early ∧
      request ∈ (response n early event).requests := by
  induction past with
  | nil => cases h
  | cons event past ih =>
    rw [history, requested, List.flatMap_cons] at h
    rcases List.mem_append.1 h with h | h
    · exact ⟨[], event, past, rfl, h⟩
    · obtain ⟨late, event', early, rfl, hrequest⟩ := ih h
      exact ⟨event :: late, event', early, rfl, hrequest⟩

end Negotiation

theorem Grid.after_append (grid : Grid) (late early : List Grid.Event) :
    Grid.after grid (late ++ early) = Grid.after (Grid.after grid early) late := by
  induction late with
  | nil => rfl
  | cons event late ih => simp only [List.cons_append, Grid.after, ih]

namespace Office

variable {σ : Type}

/-! ## One entry -/

namespace Entry

/-- What an entry does to the grid, the latest event first. -/
def onGrid (entry : Entry σ) : List Grid.Event :=
  match entry.event with
  | .command today command => command.gridEvents today
  | .advance _ _ => entry.report?.elim [] entry.before.desk.reportedToGrid

/-- What an entry does to the negotiation, the latest event first. -/
def onNegotiation (entry : Entry σ) : List Negotiation.Event :=
  match entry.event with
  | .command _ command => entry.before.desk.negotiationEvents command
  | .advance _ _ => entry.report?.elim [] Desk.reportedToNegotiation

/-- What the desk makes of an entry, and the jobs that the entry starts. -/
def stepped (entry : Entry σ) : Desk.Stepped :=
  match entry.event with
  | .command today command => entry.before.desk.handle today command
  | .advance _ _ => entry.report?.elim (entry.before.desk, []) entry.before.desk.receive

/-- An entry, taken apart. -/
theorem parts (entry : Entry σ) : ∃ sent batching,
    Desk.Parts entry.before.desk entry.onGrid entry.onNegotiation sent batching entry.stepped := by
  obtain ⟨office, event⟩ := entry
  unfold onGrid onNegotiation stepped
  cases event with
  | command today command => exact ⟨_, _, office.desk.handle_parts today command⟩
  | advance today place =>
    dsimp only
    cases Entry.report? ⟨office, .advance today place⟩ with
    | none => exact ⟨none, office.desk.batching, .aside rfl rfl rfl rfl⟩
    | some report => exact ⟨_, _, office.desk.receive_parts report⟩

/-- A request that an entry puts was made by the negotiation. -/
theorem requested_of_mem_stepped {entry : Entry σ} {request : Request}
    (h : .request request ∈ entry.stepped.2) :
    request ∈ Negotiation.requested
      (Negotiation.history entry.before.desk.negotiation entry.onNegotiation) := by
  obtain ⟨sent, _, hparts⟩ := entry.parts
  rw [hparts.jobs] at h
  rcases sent with _ | batch <;> simpa [PendingBatch.job] using h

/-- A report that is handed in was that of a job under way. -/
theorem mem_underway_of_report? {entry : Entry σ} {report : Report}
    (h : entry.report? = some report) : .ended report ∈ entry.before.underway := by
  obtain ⟨office, event⟩ := entry
  cases event with
  | command today command => cases h
  | advance today place =>
    obtain ⟨state, hplace, hstate⟩ := Option.bind_eq_some_iff.1 h
    rw [← JobState.report?_eq_some_iff.1 hstate]
    exact List.mem_of_getElem? hplace

end Entry

section Perform

variable (node : Node σ) (office : Office σ) (event : Event)

/-- Either the desk makes its step, and the jobs that this starts come after those under way, of
which one may have ended; or one of the jobs goes on, and nothing else happens. -/
theorem perform_cases :
    ((office.perform node event).desk = (Entry.stepped ⟨office, event⟩).1 ∧
      (office.perform node event).world = office.world ∧
      ∃ kept, kept ⊆ office.underway ∧ (office.perform node event).underway =
        kept ++ (Entry.stepped ⟨office, event⟩).2.map .started) ∨
    Entry.stepped ⟨office, event⟩ = (office.desk, []) ∧
      ∃ today place old, old ∈ office.underway ∧ office.perform node event =
        { office with
          underway := office.underway.set place (old.advance node today office.world).1
          world := (old.advance node today office.world).2 } := by
  cases event with
  | command today command => exact .inl ⟨rfl, rfl, office.underway, List.Subset.refl _, rfl⟩
  | advance today place =>
    simp only [perform, Entry.stepped, Entry.report?]
    cases hplace : office.underway[place]? with
    | none =>
      exact .inl ⟨rfl, rfl, office.underway, List.Subset.refl _, (List.append_nil _).symm⟩
    | some old =>
      simp only [Option.bind_some]
      cases old.report? with
      | none => exact .inr ⟨rfl, today, place, old, List.mem_of_getElem? hplace, rfl⟩
      | some report =>
        exact .inl ⟨rfl, rfl, office.underway.eraseIdx place, List.eraseIdx_subset, rfl⟩

theorem desk_perform : (office.perform node event).desk = (Entry.stepped ⟨office, event⟩).1 := by
  rcases perform_cases node office event with
    ⟨hdesk, -⟩ | ⟨hstepped, today, place, old, -, hperform⟩
  · exact hdesk
  · rw [hperform, hstepped]

theorem grid_perform : (office.perform node event).desk.grid =
    Grid.after office.desk.grid (Entry.onGrid ⟨office, event⟩) := by
  obtain ⟨_, _, hparts⟩ := Entry.parts ⟨office, event⟩
  rw [desk_perform]
  exact hparts.grid

theorem negotiation_perform : (office.perform node event).desk.negotiation =
    Negotiation.after office.desk.negotiation (Entry.onNegotiation ⟨office, event⟩) := by
  obtain ⟨_, _, hparts⟩ := Entry.parts ⟨office, event⟩
  rw [desk_perform]
  exact hparts.negotiation

/-- A job that is under way was so before, or has just gone on, or was just started. -/
theorem mem_underway_perform {state : JobState}
    (h : state ∈ (office.perform node event).underway) :
    state ∈ office.underway ∨
      (∃ today, ∃ old ∈ office.underway, state = (old.advance node today office.world).1 ∧
        (office.perform node event).world = (old.advance node today office.world).2) ∨
      ∃ job ∈ (Entry.stepped ⟨office, event⟩).2, state = .started job := by
  rcases perform_cases node office event with
    ⟨-, -, kept, hkept, hunderway⟩ | ⟨-, today, place, old, hold, hperform⟩
  · rw [hunderway] at h
    rcases List.mem_append.1 h with h | h
    · exact .inl (hkept h)
    · obtain ⟨job, hjob, rfl⟩ := List.mem_map.1 h
      exact .inr (.inr ⟨job, hjob, rfl⟩)
  · rw [hperform] at h ⊢
    rcases List.mem_or_eq_of_mem_set h with h | rfl
    · exact .inl h
    · exact .inr (.inl ⟨today, old, hold, rfl, rfl⟩)

/-- The jobs that an entry starts are under way from then on. -/
theorem started_mem_underway_perform {job : Job} (h : job ∈ (Entry.stepped ⟨office, event⟩).2) :
    .started job ∈ (office.perform node event).underway := by
  rcases perform_cases node office event with ⟨-, -, kept, -, hunderway⟩ | ⟨hstepped, -⟩
  · rw [hunderway]
    exact List.mem_append_right kept (List.mem_map_of_mem h)
  · rw [hstepped] at h
    cases h

end Perform

/-- Every call that was made stays in the log. -/
theorem calls_perform (node : Node σ) (office : Office (σ × List Call)) (event : Event) :
    office.world.server.2 ⊆ (office.perform node.logged event).world.server.2 := by
  rcases perform_cases node.logged office event with
    ⟨-, hworld, -⟩ | ⟨-, today, place, old, -, hperform⟩
  · rw [hworld]
    exact List.Subset.refl _
  · obtain ⟨made, hmade, -⟩ := old.exists_made node today office.world
    rw [hperform]
    show _ ⊆ (old.advance node.logged today office.world).2.server.2
    rw [hmade]
    exact List.subset_append_left _ made

/-! ## All entries of a history -/

/-- What the entries of a history do to the grid, the latest event first. -/
def onGrid (past : List (Entry σ)) : List Grid.Event := past.flatMap Entry.onGrid

/-- What the entries of a history do to the negotiation, the latest event first. -/
def onNegotiation (past : List (Entry σ)) : List Negotiation.Event :=
  past.flatMap Entry.onNegotiation

theorem onGrid_cons (entry : Entry σ) (past : List (Entry σ)) :
    onGrid (entry :: past) = entry.onGrid ++ onGrid past :=
  List.flatMap_cons

theorem onNegotiation_cons (entry : Entry σ) (past : List (Entry σ)) :
    onNegotiation (entry :: past) = entry.onNegotiation ++ onNegotiation past :=
  List.flatMap_cons

theorem grid_after (node : Node σ) (office : Office σ) (past : List Event) :
    (after node office past).desk.grid =
      Grid.after office.desk.grid (onGrid (history node office past)) := by
  induction past with
  | nil => rfl
  | cons event past ih =>
    rw [history, onGrid_cons, Grid.after_append, ← ih]
    exact grid_perform node _ event

theorem negotiation_after (node : Node σ) (office : Office σ) (past : List Event) :
    (after node office past).desk.negotiation =
      Negotiation.after office.desk.negotiation (onNegotiation (history node office past)) := by
  induction past with
  | nil => rfl
  | cons event past ih =>
    rw [history, onNegotiation_cons, Negotiation.after_append, ← ih]
    exact negotiation_perform node _ event

/-- An entry of a history found what a part of the run had led to. -/
theorem exists_before_of_mem_history {node : Node σ} {office : Office σ} {past : List Event}
    {entry : Entry σ} (h : entry ∈ history node office past) :
    ∃ before, entry.before = after node office before := by
  obtain ⟨late, early, hpast⟩ := List.append_of_mem h
  obtain ⟨before, hbefore, -⟩ := exists_of_history_eq hpast
  exact ⟨before, hbefore⟩

end Office

end FileMarket
