import FileMarket.Grid.Toolbar
import Mathlib.Tactic

/-!
# Histories of a grid

Everything that can be done with a grid is an event: a load is begun or its outcome is offered, a
row is added, and the user filters, sorts, selects, or asks for a receipt. `perform` is what one
event does to a grid, `after` what a run of events does, and `history` is the record of a run, each
event with the response it got. Runs and histories have the latest event first.

`Transition grid event response grid'` lists what can come of an event, one rule for each outcome.
Every event follows one of the rules (`transition_perform`), so a property of all runs is proved
rule by rule.
-/

set_option autoImplicit false

namespace FileMarket.Grid

/-! ## Events -/

/-- What can be done with a grid. The outcome of a load is offered with any token whatever, at any
time and as often as one likes. -/
inductive Event where
  | switchTo (target : Section)
  | refresh
  | reload
  | finishLoad (token : LoadToken) (result : Outcome (List FileRecord))
  | append (record : FileRecord)
  | setFilter (field : FilterField) (tag : String)
  | clearFilters
  | setSort (spec : SortSpec)
  | clickColumn (column : Column)
  | toggleRow (hash : String)
  | toggleAll (today : Date)
  | clearSelection
  | clearError
  | prepareBatch (action : Action) (priceText : Option String)
  | info
  | downloadTarget

/-- What an event gives back: nothing in particular, the token of the load it begins, that no load
was begun because one is under way, the reason of a refusal, or whether an outcome was taken. -/
inductive Response where
  | done
  | issued (token : LoadToken)
  | withheld
  | refused (error : MarketError)
  | received (reception : Reception)
deriving DecidableEq

/-- Whether a response says that nothing came of the event. -/
def Response.isRefusal : Response → Bool
  | .withheld | .refused _ | .received .stale => true
  | .done | .issued _ | .received .accepted => false

/-- The grid after a step that can be refused. -/
def put (grid : Grid) : Outcome Grid → Grid × Response
  | .ok grid => (grid, .done)
  | .error error => (grid, .refused error)

/-- The response to a question that changes nothing. -/
def look {α : Type} (grid : Grid) : Outcome α → Grid × Response
  | .ok _ => (grid, .done)
  | .error error => (grid, .refused error)

/-- The grid after an event, and the response to the event. -/
def perform (grid : Grid) : Event → Grid × Response
  | .switchTo target => ((grid.switchTo target).1, .issued (grid.switchTo target).2)
  | .refresh => match grid.refresh? with
    | some (grid, token) => (grid, .issued token)
    | none => (grid, .withheld)
  | .reload => (grid.reload.1, .issued grid.reload.2)
  | .finishLoad token result =>
    ((grid.finishLoad token result).1, .received (grid.finishLoad token result).2)
  | .append record => (grid.append record, .done)
  | .setFilter field tag => grid.put (grid.setFilter field tag)
  | .clearFilters => (grid.clearFilters, .done)
  | .setSort spec => grid.put (grid.setSort spec)
  | .clickColumn column => grid.put (grid.clickColumn column)
  | .toggleRow hash => grid.put (grid.toggleRow hash)
  | .toggleAll today => (grid.toggleAll today, .done)
  | .clearSelection => (grid.clearSelection, .done)
  | .clearError => (grid.clearError, .done)
  | .prepareBatch action priceText => grid.look (grid.prepareBatch action priceText)
  | .info => grid.look grid.info
  | .downloadTarget => grid.look grid.downloadTarget

/-! ## Runs -/

/-- An event and the response it got. -/
structure Entry where
  event : Event
  response : Response

/-- The grid after a run of events, the latest event first. -/
def after (grid : Grid) : List Event → Grid
  | [] => grid
  | event :: past => ((after grid past).perform event).1

/-- The response to an event that follows a run. -/
def response (grid : Grid) (past : List Event) (event : Event) : Response :=
  ((after grid past).perform event).2

/-- The record of a run, the latest entry first. -/
def history (grid : Grid) : List Event → List Entry
  | [] => []
  | event :: past => ⟨event, response grid past event⟩ :: history grid past

/-! ## The rules -/

/-- The grid with a load under way, of the section it shows. -/
def begun (grid : Grid) : Grid :=
  { grid with
    generation := grid.generation + 1
    loading := some ⟨grid.current, grid.generation + 1⟩ }

/-- The grid just moved to a section. -/
def moved (grid : Grid) (target : Section) : Grid :=
  { grid with
    current := target
    records := []
    selection := .empty
    criteria := .none
    sort := target.layout.defaultSort
    error := none }

/-- What can come of an event. -/
inductive Transition (grid : Grid) : Event → Response → Grid → Prop
  -- Loads are begun by moving, or where the grid is.
  | switchTo (target : Section) :
      Transition grid (.switchTo target) (.issued ⟨target, grid.generation + 1⟩)
        (grid.moved target).begun
  | refresh (idle : grid.loading = none) :
      Transition grid .refresh (.issued ⟨grid.current, grid.generation + 1⟩) grid.begun
  | withheld (token : LoadToken) (busy : grid.loading = some token) :
      Transition grid .refresh .withheld grid
  | reload : Transition grid .reload (.issued ⟨grid.current, grid.generation + 1⟩) grid.begun
  -- Outcomes of loads: one that is not waited for is stale.
  | loaded (token : LoadToken) (records : List FileRecord) (awaited : grid.loading = some token) :
      Transition grid (.finishLoad token (.ok records)) (.received .accepted)
        { grid with loading := none, records := records, selection := .empty, error := none }
  | loadFailed (token : LoadToken) (error : MarketError) (awaited : grid.loading = some token) :
      Transition grid (.finishLoad token (.error error)) (.received .accepted)
        { grid with loading := none, error := some error }
  | stale (token : LoadToken) (result : Outcome (List FileRecord))
      (unawaited : grid.loading ≠ some token) :
      Transition grid (.finishLoad token result) (.received .stale) grid
  | append (record : FileRecord) : Transition grid (.append record) .done (grid.append record)
  -- What the user sees and selects.
  | setFilter (field : FilterField) (tag : String) (criteria : Criteria)
      (shown : grid.layout.showsFilter field = true)
      (set : grid.criteria.set field tag = .ok criteria) :
      Transition grid (.setFilter field tag) .done
        { grid with criteria := criteria, selection := grid.selection.settle }
  | clearFilters : Transition grid .clearFilters .done grid.clearFilters
  | setSort (spec : SortSpec) (shown : grid.layout.showsColumn spec.column = true) :
      Transition grid (.setSort spec) .done { grid with sort := spec }
  | clickColumn (column : Column)
      (shown : grid.layout.showsColumn (grid.sort.clicked column).column = true) :
      Transition grid (.clickColumn column) .done { grid with sort := grid.sort.clicked column }
  | toggleRow (hash : String) (record : FileRecord) (known : record ∈ grid.records)
      (named : record.hash = hash) :
      Transition grid (.toggleRow hash) .done
        { grid with selection := grid.selection.toggle hash }
  | toggleAll (today : Date) : Transition grid (.toggleAll today) .done (grid.toggleAll today)
  | clearSelection : Transition grid .clearSelection .done grid.clearSelection
  | clearError : Transition grid .clearError .done grid.clearError
  -- Questions, and all that is refused.
  | prepared (action : Action) (priceText : Option String) :
      Transition grid (.prepareBatch action priceText) .done grid
  | shown : Transition grid .info .done grid
  | targeted : Transition grid .downloadTarget .done grid
  | refused (event : Event) (error : MarketError) : Transition grid event (.refused error) grid

theorem transition_refresh (grid : Grid) :
    Transition grid .refresh (grid.perform .refresh).2 (grid.perform .refresh).1 := by
  unfold perform refresh? isLoading
  cases hloading : grid.loading with
  | none => exact .refresh hloading
  | some token => exact .withheld token hloading

theorem transition_finishLoad (grid : Grid) (token : LoadToken)
    (result : Outcome (List FileRecord)) :
    Transition grid (.finishLoad token result) (.received (grid.finishLoad token result).2)
      (grid.finishLoad token result).1 := by
  by_cases awaited : grid.loading = some token
  · unfold finishLoad
    rw [if_neg (not_not_intro awaited)]
    cases result with
    | ok records => exact .loaded token records awaited
    | error error => exact .loadFailed token error awaited
  · unfold finishLoad
    rw [if_pos awaited]
    exact .stale token result awaited

theorem transition_setFilter (grid : Grid) (field : FilterField) (tag : String) :
    Transition grid (.setFilter field tag) (grid.put (grid.setFilter field tag)).2
      (grid.put (grid.setFilter field tag)).1 := by
  unfold setFilter
  cases shown : grid.layout.showsFilter field with
  | false => exact .refused _ _
  | true =>
    cases set : grid.criteria.set field tag with
    | error error => exact .refused _ error
    | ok criteria => exact .setFilter field tag criteria shown set

/-- An event that sorts, if the table has the column. -/
theorem transition_sort (grid : Grid) (event : Event) (spec : SortSpec)
    (h : grid.layout.showsColumn spec.column = true →
      Transition grid event .done { grid with sort := spec }) :
    Transition grid event (grid.put (grid.setSort spec)).2 (grid.put (grid.setSort spec)).1 := by
  unfold setSort
  cases shown : grid.layout.showsColumn spec.column with
  | false => exact .refused _ _
  | true => exact h shown

theorem transition_toggleRow (grid : Grid) (hash : String) :
    Transition grid (.toggleRow hash) (grid.put (grid.toggleRow hash)).2
      (grid.put (grid.toggleRow hash)).1 := by
  unfold toggleRow
  cases known : grid.records.any (·.hash == hash) with
  | false => exact .refused _ _
  | true =>
    obtain ⟨record, hmem, hhash⟩ := List.any_eq_true.1 known
    exact .toggleRow hash record hmem (beq_iff_eq.1 hhash)

/-- A question leaves the grid as it is, whatever the answer. -/
theorem transition_look {α : Type} (grid : Grid) (event : Event) (result : Outcome α)
    (h : Transition grid event .done grid) :
    Transition grid event (grid.look result).2 (grid.look result).1 := by
  cases result with
  | ok _ => exact h
  | error error => exact .refused event error

/-- Every event follows a rule. -/
theorem transition_perform (grid : Grid) (event : Event) :
    Transition grid event (grid.perform event).2 (grid.perform event).1 := by
  cases event with
  | switchTo target => exact .switchTo target
  | refresh => exact transition_refresh grid
  | reload => exact .reload
  | finishLoad token result => exact transition_finishLoad grid token result
  | append record => exact .append record
  | setFilter field tag => exact transition_setFilter grid field tag
  | clearFilters => exact .clearFilters
  | setSort spec => exact transition_sort grid _ spec fun shown => .setSort spec shown
  | clickColumn column =>
    -- A click is a sort by the column that the click asks for.
    exact transition_sort grid _ (grid.sort.clicked column) fun shown => .clickColumn column shown
  | toggleRow hash => exact transition_toggleRow grid hash
  | toggleAll today => exact .toggleAll today
  | clearSelection => exact .clearSelection
  | clearError => exact .clearError
  | prepareBatch action priceText =>
    exact transition_look grid _ (grid.prepareBatch action priceText) (.prepared action priceText)
  | info => exact transition_look grid _ grid.info .shown
  | downloadTarget => exact transition_look grid _ grid.downloadTarget .targeted

/-- A refused event changes nothing. -/
theorem Transition.eq_of_isRefusal {grid grid' : Grid} {event : Event} {response : Response}
    (h : Transition grid event response grid') (hrefusal : response.isRefusal = true) :
    grid' = grid := by
  cases h with
  | withheld | stale | refused => rfl
  | _ => cases hrefusal

/-- Only a move changes the section that a grid shows. -/
theorem current_after {events : List Event} (grid : Grid)
    (h : ∀ event ∈ events, ∀ target, event ≠ .switchTo target) :
    (after grid events).current = grid.current := by
  induction events with
  | nil => rfl
  | cons event past ih =>
    obtain ⟨hevent, hpast⟩ := List.forall_mem_cons.1 h
    rw [← ih hpast]
    have hrule := transition_perform (after grid past) event
    show ((after grid past).perform event).1.current = _
    generalize (after grid past).perform event = step at hrule ⊢
    obtain ⟨grid', response⟩ := step
    cases hrule with
    | switchTo target => exact absurd rfl (hevent target)
    | _ => rfl

end FileMarket.Grid
