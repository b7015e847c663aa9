import FileMarket.Action
import FileMarket.Filter.Criteria
import FileMarket.Sort.Spec

/-!
# Layouts of sections

Which columns, filter controls and actions the table of a section has, and what
it is sorted by at first.
-/

namespace FileMarket

/-- The layout of a section's table. -/
structure Layout where
  columns : List Column
  filters : List FilterField
  defaultSort : SortSpec
  actions : List Action
deriving DecidableEq, Repr

namespace Layout

/-- Whether the table offers an action. -/
def allows (layout : Layout) (action : Action) : Bool := layout.actions.contains action

/-- Whether the table has a filter control. -/
def showsFilter (layout : Layout) (field : FilterField) : Bool := layout.filters.contains field

/-- Whether the table has a column. -/
def showsColumn (layout : Layout) (column : Column) : Bool := layout.columns.contains column

end Layout

/-- The layout of each section. -/
def Section.layout : Section → Layout
  | .hosting => {
      columns := [.name, .extension, .size, .date, .price]
      filters := [.type, .size, .date, .price]
      defaultSort := .descending .date
      actions := [.share, .delete, .info] }
  | .storing => {
      columns := [.name, .extension, .size, .date]
      filters := [.type, .size, .date]
      defaultSort := .descending .date
      actions := [.host, .share, .delete, .info] }
  | .sharing => {
      columns := [.name, .extension, .size, .date]
      filters := [.type, .size, .date]
      defaultSort := .descending .date
      actions := [.host, .delete, .info] }
  | .explore => {
      columns := [.name, .extension, .size, .date, .price, .downloads]
      filters := [.type, .size, .date, .price, .downloads]
      defaultSort := .descending .date
      actions := [.download, .info] }
  | .saved => {
      columns := [.name, .extension, .size]
      filters := [.type, .size]
      defaultSort := .ascending .name
      actions := [.download, .delete, .info] }
  | .purchased => {
      columns := [.name, .extension, .size, .date, .price]
      filters := [.type, .size, .date, .price]
      defaultSort := .descending .date
      actions := [.info] }

/-- The sections whose tables offer an action. -/
def Action.sections (action : Action) : List Section :=
  Section.all.filter fun s => s.layout.allows action

end FileMarket
