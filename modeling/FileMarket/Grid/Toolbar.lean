import FileMarket.Grid.Basic
import FileMarket.Receipt

/-!
# The toolbar

Without a selection the toolbar shows the filter controls. With one it offers
the actions of the section, disabled with a reason where an action does not go
with the number of rows selected. An action that changes a collection is first
prepared as a batch and waits for confirmation.
-/

namespace FileMarket

/-- The button of an action; it is disabled when there is a reason against it. -/
structure ActionButton where
  action : Action
  reason : Option String
deriving DecidableEq, Repr

/-- Whether the button can be used. -/
def ActionButton.isEnabled (button : ActionButton) : Bool := button.reason.isNone

/-- What the toolbar shows. -/
inductive Toolbar where
  | filters (criteria : Criteria) (fields : List FilterField)
  | batch (count : Nat) (buttons : List ActionButton)
deriving DecidableEq, Repr

/-- An action on files that waits for confirmation. -/
structure PendingBatch where
  action : Action
  /-- The section the files were selected in. -/
  origin : Section
  records : List FileRecord
  /-- The hosting price, for hosting only. -/
  price : Option Binary64
  receipt : Receipt
deriving DecidableEq

namespace Grid

/-- The reason against an action on the present selection, as a failure. -/
def checkAction (grid : Grid) (action : Action) : Outcome Unit :=
  if !grid.layout.allows action then
    .error (.unavailable (action.label ++ " is not available in " ++ grid.current.label))
  else if grid.selection.isEmpty then .error (.unavailable "No files selected.")
  else if 1 < grid.selection.size && action.needsSingle then
    .error (.unavailable ("Select a single file to use " ++ action.label ++ "."))
  else .ok ()

/-- The button of an action for the present selection. -/
def button (grid : Grid) (action : Action) : ActionButton where
  action := action
  reason := match grid.checkAction action with
    | .ok () => none
    | .error error => some error.message

/-- The toolbar. -/
def toolbar (grid : Grid) : Toolbar :=
  if grid.selection.isEmpty then .filters grid.criteria grid.layout.filters
  else .batch grid.selection.size (grid.layout.actions.map grid.button)

/-- The price that a batch sets: hosting reads it from a text, other actions set none. -/
def batchPrice (action : Action) (priceText : Option String) : Outcome (Option Binary64) :=
  match action with
  | .host => (parsePrice (priceText.getD "")).map some
  | _ => .ok none

/-- Prepares an action that changes a collection, for all selected records. -/
def prepareBatch (grid : Grid) (action : Action) (priceText : Option String) :
    Outcome PendingBatch := do
  if !action.isMutation then
    throw (.unavailable (action.label ++ " does not need a confirmation"))
  grid.checkAction action
  let price ← batchPrice action priceText
  let records := grid.selected.map fun record =>
    if price.isSome then { record with price := price } else record
  return ⟨action, grid.current, records, price, .batch action records⟩

/-- The selected record, for an action that takes exactly one. -/
def singleTarget (grid : Grid) (action : Action) : Outcome FileRecord := do
  grid.checkAction action
  match grid.selected with
  | record :: _ => return record
  | [] => throw (.unavailable "No files selected.")

/-- The record whose attributes are to be shown. -/
def info (grid : Grid) : Outcome FileRecord := grid.singleTarget .info

/-- The record that a purchase is to be negotiated for. -/
def downloadTarget (grid : Grid) : Outcome FileRecord := grid.singleTarget .download

end Grid

end FileMarket
