import FileMarket.Layout
import FileMarket.Selection
import FileMarket.Sort.Records

/-!
# The grid

The table of one section: its records as last listed, the filter criteria, the
sort, the selected rows, and the load that is under way. A listing is taken in
only while the load it was asked for is the one under way.
-/

namespace FileMarket

/-- The identity of a load: the section asked for, and the number of the question. -/
structure LoadToken where
  target : Section
  generation : Nat
deriving DecidableEq, Repr

/-- The state of the table. -/
structure Grid where
  current : Section
  records : List FileRecord
  /-- The number of loads begun and of rows appended so far. -/
  generation : Nat
  loading : Option LoadToken
  criteria : Criteria
  sort : SortSpec
  selection : Selection
  error : Option MarketError
deriving DecidableEq

namespace Grid

/-- The table of a section before anything is loaded. -/
def new (target : Section) : Grid where
  current := target
  records := []
  generation := 0
  loading := none
  criteria := .none
  sort := target.layout.defaultSort
  selection := .empty
  error := none

/-- The layout of the section shown. -/
def layout (grid : Grid) : Layout := grid.current.layout

/-- Whether a load is under way. -/
def isLoading (grid : Grid) : Bool := grid.loading.isSome

/-- Begins a load of the current section. An earlier one becomes stale. -/
def reload (grid : Grid) : Grid × LoadToken :=
  let token : LoadToken := ⟨grid.current, grid.generation + 1⟩
  ({ grid with generation := grid.generation + 1, loading := some token }, token)

/-- Moves to a section and begins a load of it. Records, selection, criteria and
error of the section left behind are dropped. -/
def switchTo (grid : Grid) (target : Section) : Grid × LoadToken :=
  { grid with
    current := target
    records := []
    selection := .empty
    criteria := .none
    sort := target.layout.defaultSort
    error := none }.reload

/-- Begins a load, unless one is under way. -/
def refresh? (grid : Grid) : Option (Grid × LoadToken) :=
  if grid.isLoading then none else some grid.reload

/-- Offers the outcome of a load. It is taken only for the token under way. A
listing replaces the records and clears the selection; a failure keeps both. -/
def finishLoad (grid : Grid) (token : LoadToken) (result : Outcome (List FileRecord)) :
    Grid × Reception :=
  if grid.loading ≠ some token then (grid, .stale)
  else match result with
    | .ok records =>
      ({ grid with loading := none, records := records, selection := .empty, error := none },
        .accepted)
    | .error error => ({ grid with loading := none, error := some error }, .accepted)

/-- The records with one put in place of the first with its hash, or at the end. -/
def upsert (record : FileRecord) : List FileRecord → List FileRecord
  | [] => [record]
  | r :: rest => if r.hash = record.hash then record :: rest else r :: upsert record rest

/-- Adds a row, or replaces the one with its hash. A load under way does not know
the row and becomes stale. -/
def append (grid : Grid) (record : FileRecord) : Grid :=
  { grid with
    records := upsert record grid.records
    generation := grid.generation + 1
    loading := none
    selection := .empty }

/-- The visible rows on a given day: the records that meet the criteria, sorted. -/
def rows (grid : Grid) (today : Date) : List FileRecord :=
  grid.sort.sort (grid.criteria.apply today grid.records)

/-- Sets a filter control that the section has. -/
def setFilter (grid : Grid) (field : FilterField) (tag : String) : Outcome Grid :=
  if !grid.layout.showsFilter field then
    .error (.unavailable (grid.current.label ++ " has no " ++ field.label ++ " filter"))
  else (grid.criteria.set field tag).map fun criteria =>
    { grid with criteria := criteria, selection := grid.selection.settle }

/-- Sets all filter controls back. -/
def clearFilters (grid : Grid) : Grid :=
  { grid with criteria := .none, selection := grid.selection.settle }

/-- Sorts by a column that the section has. -/
def setSort (grid : Grid) (spec : SortSpec) : Outcome Grid :=
  if !grid.layout.showsColumn spec.column then
    .error (.unavailable (grid.current.label ++ " has no " ++ spec.column.header ++ " column"))
  else .ok { grid with sort := spec }

/-- Sorts as a click on a column's header asks for. -/
def clickColumn (grid : Grid) (column : Column) : Outcome Grid :=
  grid.setSort (grid.sort.clicked column)

/-- Selects the row with a hash, or takes it out of the selection. -/
def toggleRow (grid : Grid) (hash : String) : Outcome Grid :=
  if grid.records.any (·.hash == hash) then
    .ok { grid with selection := grid.selection.toggle hash }
  else .error (.notFound ("No file " ++ hash ++ " in " ++ grid.current.label))

/-- Uses the header's check box on a given day. -/
def toggleAll (grid : Grid) (today : Date) : Grid :=
  { grid with selection := grid.selection.toggleAll ((grid.rows today).map (·.hash)) }

/-- Selects nothing. -/
def clearSelection (grid : Grid) : Grid := { grid with selection := .empty }

/-- Takes away the error shown. -/
def clearError (grid : Grid) : Grid := { grid with error := none }

/-- The selected records, in the order of the collection. -/
def selected (grid : Grid) : List FileRecord :=
  grid.records.filter fun record => grid.selection.contains record.hash

end Grid

end FileMarket
