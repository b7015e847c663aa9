import FileMarket.Grid.Toolbar
import FileMarket.Node
import Mathlib.Tactic

/-!
# Preparing a batch

The calls that a batch makes, and what is known of a batch that was prepared: it is for an action
that the table of its section offers, and these tables offer changes only of sections that can be
changed.
-/

set_option autoImplicit false

namespace FileMarket

/-! ## The calls of a batch -/

/-- The calls that carry out an action on records of a section: one for each record. -/
def Action.calls (action : Action) (origin : Section) (records : List FileRecord) : List Call :=
  match action with
  | .delete => records.map fun record => .delete origin record.hash
  | .host => records.map fun record => .add .hosting record
  | .share => records.map fun record => .add .sharing record
  | .download | .info => []

/-- The calls that a batch makes, for the files of its receipt. -/
def PendingBatch.calls (batch : PendingBatch) : List Call :=
  batch.action.calls batch.origin batch.receipt.files

/-- The section that a call changes. -/
def Call.changed? : Call → Option Section
  | .add target _ => some target
  | .delete target _ => some target
  | _ => none

theorem Action.calls_nil (action : Action) (origin : Section) : action.calls origin [] = [] := by
  cases action <;> rfl

theorem Action.calls_cons (action : Action) (origin : Section) (record : FileRecord)
    (records : List FileRecord) : action.calls origin (record :: records) =
      action.calls origin [record] ++ action.calls origin records := by
  cases action <;> rfl

/-- The calls of a batch are changes. -/
theorem Action.filter_calls (action : Action) (origin : Section) (records : List FileRecord) :
    (action.calls origin records).filter Call.isMutation = action.calls origin records := by
  rw [List.filter_eq_self]
  intro call hcall
  cases action with
  | download | info => cases hcall
  | host | share | delete =>
    obtain ⟨record, -, rfl⟩ := List.mem_map.1 hcall
    rfl

/-! ## Batches as they are prepared -/

/-- A batch as it is prepared: for an action that changes a collection and that the table of the
section offers, with a receipt for its records. -/
structure PendingBatch.WellPrepared (batch : PendingBatch) : Prop where
  isMutation : batch.action.isMutation = true
  allowed : batch.origin.layout.allows batch.action = true
  files : batch.receipt.files = batch.records

/-- An action passes the check if the table offers it, something is selected, and where it takes a
single file, nothing else is selected. -/
theorem Grid.checkAction_eq_ok_iff {grid : Grid} {action : Action} :
    grid.checkAction action = .ok () ↔
      grid.layout.allows action = true ∧ grid.selection.isEmpty = false ∧
        (action.needsSingle = true → grid.selection.size ≤ 1) := by
  unfold checkAction
  cases grid.layout.allows action <;> cases grid.selection.isEmpty <;>
    cases action.needsSingle <;> simp

/-- A record with the price of a batch, if the batch has one. -/
def FileRecord.priced (record : FileRecord) (price : Option Binary64) : FileRecord :=
  if price.isSome then { record with price := price } else record

@[simp]
theorem FileRecord.hash_priced (record : FileRecord) (price : Option Binary64) :
    (record.priced price).hash = record.hash := by
  unfold priced
  split <;> rfl

/-- A price for hosting is one that can be read from the text. -/
theorem Grid.batchPrice_host_eq_ok_iff {priceText : Option String} {price : Option Binary64} :
    batchPrice .host priceText = .ok price ↔
      ∃ amount, parsePrice (priceText.getD "") = .ok amount ∧ price = some amount := by
  show (parsePrice (priceText.getD "")).map some = _ ↔ _
  cases parsePrice (priceText.getD "") with
  | error error => exact ⟨nofun, nofun⟩
  | ok amount =>
    constructor
    · intro h
      exact ⟨amount, rfl, (Except.ok.inj h).symm⟩
    · rintro ⟨_, hamount, rfl⟩
      cases hamount
      rfl

/-- A batch is prepared if its action changes a collection and passes the check, and its price can
be read. It is then for the records selected in the section that is shown. -/
theorem Grid.prepareBatch_eq_ok_iff {grid : Grid} {action : Action} {priceText : Option String}
    {batch : PendingBatch} :
    grid.prepareBatch action priceText = .ok batch ↔
      action.isMutation = true ∧ grid.checkAction action = .ok () ∧
        ∃ price, batchPrice action priceText = .ok price ∧
          batch = ⟨action, grid.current, grid.selected.map (·.priced price), price,
            .batch action (grid.selected.map (·.priced price))⟩ := by
  unfold prepareBatch
  cases action.isMutation with
  | false => exact ⟨nofun, nofun⟩
  | true =>
    cases grid.checkAction action with
    | error error => exact ⟨nofun, nofun⟩
    | ok =>
      cases batchPrice action priceText with
      | error error => exact ⟨nofun, nofun⟩
      | ok price =>
        constructor
        · intro h
          exact ⟨rfl, rfl, price, rfl, (Except.ok.inj h).symm⟩
        · rintro ⟨-, -, _, hprice, rfl⟩
          cases hprice
          rfl

/-- A batch is prepared for the section that is shown. -/
theorem Grid.wellPrepared_of_prepareBatch {grid : Grid} {action : Action}
    {priceText : Option String} {batch : PendingBatch}
    (h : grid.prepareBatch action priceText = .ok batch) :
    batch.WellPrepared ∧ batch.origin = grid.current := by
  obtain ⟨hmutation, hcheck, price, -, rfl⟩ := prepareBatch_eq_ok_iff.1 h
  exact ⟨⟨hmutation, (checkAction_eq_ok_iff.1 hcheck).1, rfl⟩, rfl⟩

/-- The tables offer changes only where they can be made. -/
theorem PendingBatch.WellPrepared.isMutable {batch : PendingBatch} (h : batch.WellPrepared)
    {call : Call} (hcall : call ∈ batch.calls) {target : Section}
    (htarget : call.changed? = some target) : target.isMutable = true := by
  obtain ⟨action, origin, records, price, receipt⟩ := batch
  unfold calls Action.calls at hcall
  cases action with
  | download | info => cases hcall
  | host =>
    obtain ⟨record, -, rfl⟩ := List.mem_map.1 hcall
    cases htarget
    rfl
  | share =>
    obtain ⟨record, -, rfl⟩ := List.mem_map.1 hcall
    cases htarget
    rfl
  | delete =>
    obtain ⟨record, -, rfl⟩ := List.mem_map.1 hcall
    cases htarget
    have hallowed := h.allowed
    cases origin with
    | explore | purchased => cases hallowed
    | hosting | storing | sharing | saved => rfl

end FileMarket
