import FileMarket.Proofs.Grid.Consistency
import FileMarket.Proofs.Grid.Preparation

/-!
# The toolbar tells the truth

What the toolbar offers is what the grid does when it is asked to (`Truthful`): the button of an
action can be used exactly if the action is not refused, and the reason that a button shows is the
message of the refusal. The toolbar asks `checkAction` and no more, while an action goes on to the
selected records. It is refused for no other reason (`attempt_eq_checkAction`), for there is always
a record: in every run what is selected is among the records. `truthful_after` puts this together.
-/

set_option autoImplicit false

namespace FileMarket

/-- Whether the toolbar has a button for an action that can be used. -/
def Toolbar.Enables (toolbar : Toolbar) (action : Action) : Prop :=
  ∃ count buttons, toolbar = .batch count buttons ∧
    ∃ button ∈ buttons, button.action = action ∧ button.isEnabled = true

/-- Whether a text will do as the price of an action: only hosting needs one. -/
def Action.TakesPrice (action : Action) (priceText : Option String) : Prop :=
  action = .host → ∃ price, parsePrice (priceText.getD "") = .ok price

namespace Grid

/-- Asks the grid for an action on the selected rows, and gives the reason if it is refused. -/
def attempt (grid : Grid) (action : Action) (priceText : Option String) : Outcome Unit :=
  match action with
  | .info => grid.info.map fun _ => ()
  | .download => grid.downloadTarget.map fun _ => ()
  | .host | .share | .delete => (grid.prepareBatch action priceText).map fun _ => ()

/-- What the toolbar shows agrees with what the actions do. -/
structure Truthful (grid : Grid) : Prop where
  /-- A button can be used exactly if its action is not refused. -/
  enabled : ∀ action priceText, action.TakesPrice priceText →
    (grid.toolbar.Enables action ↔ grid.attempt action priceText = .ok ())
  /-- A button that cannot be used shows the message of the refusal. -/
  reason : ∀ count buttons, grid.toolbar = .batch count buttons →
    ∀ button ∈ buttons, ∀ text, button.reason = some text → ∀ priceText,
      ∃ error, grid.attempt button.action priceText = .error error ∧ error.message = text
  /-- With nothing selected the toolbar shows the filters, and every action is refused. -/
  unselected : grid.selection.isEmpty = true →
    grid.toolbar = .filters grid.criteria grid.layout.filters ∧
      ∀ action priceText, ∃ error, grid.attempt action priceText = .error error
  /-- The number shown is the number of selected hashes. -/
  count : ∀ count buttons, grid.toolbar = .batch count buttons →
    count = grid.selection.hashes.toList.length
  /-- The record that an action is for is one of the collection, with the one selected hash. -/
  target : ∀ record, grid.info = .ok record ∨ grid.downloadTarget = .ok record →
    record ∈ grid.records ∧ grid.selection.hashes.toList = [record.hash]

variable {grid : Grid} {action : Action}

/-! ## What the actions do -/

/-- What does not pass the check is refused for the reason that the check gives. -/
theorem attempt_of_checkAction_error {error : MarketError}
    (h : grid.checkAction action = .error error) (priceText : Option String) :
    grid.attempt action priceText = .error error := by
  cases action with
  | info | download =>
    unfold attempt
    simp only [info, downloadTarget, singleTarget, h]
    rfl
  | host | share | delete =>
    unfold attempt
    simp only [prepareBatch, h]
    rfl

/-- Something is selected only if there is a record with the hash. -/
theorem Consistent.exists_selected (h : Consistent grid)
    (hselected : grid.selection.isEmpty = false) :
    ∃ record rest, grid.selected = record :: rest := by
  cases hhashes : grid.selection.hashes.toList with
  | nil =>
    rw [Selection.isEmpty, HashSet.isEmpty, hhashes] at hselected
    cases hselected
  | cons hash others =>
    have hmem : grid.selection.hashes.contains hash = true := by
      rw [HashSet.contains_iff_mem, hhashes]
      exact List.mem_cons_self
    obtain ⟨record, hrecord, rfl⟩ := h.selected hash hmem
    have hrow : record ∈ grid.selected := List.mem_filter.2 ⟨hrecord, hmem⟩
    exact List.exists_cons_of_ne_nil (List.ne_nil_of_mem hrow)

/-- In a consistent grid the check gives the only reasons against an action. -/
theorem Consistent.attempt_eq_checkAction (h : Consistent grid) {priceText : Option String}
    (hprice : action.TakesPrice priceText) :
    grid.attempt action priceText = grid.checkAction action := by
  cases hcheck : grid.checkAction action with
  | error error => exact attempt_of_checkAction_error hcheck priceText
  | ok =>
    obtain ⟨-, hselected, -⟩ := checkAction_eq_ok_iff.1 hcheck
    cases action with
    -- These two go on to a record, which is there because the selection is among the records.
    | info | download =>
      obtain ⟨record, rest, hrows⟩ := h.exists_selected hselected
      unfold attempt
      simp only [info, downloadTarget, singleTarget, hcheck, hrows]
      rfl
    | host =>
      obtain ⟨price, hparse⟩ := hprice rfl
      unfold attempt
      simp only [prepareBatch, batchPrice, hcheck, hparse]
      rfl
    | share | delete =>
      unfold attempt
      simp only [prepareBatch, hcheck]
      rfl

/-! ## What the toolbar shows -/

theorem toolbar_of_selected (h : grid.selection.isEmpty = false) :
    grid.toolbar = .batch grid.selection.size (grid.layout.actions.map grid.button) := by
  rw [toolbar, h]
  rfl

theorem toolbar_of_unselected (h : grid.selection.isEmpty = true) :
    grid.toolbar = .filters grid.criteria grid.layout.filters := by
  rw [toolbar, h]
  rfl

/-- A batch toolbar counts the selection and has the buttons of the table's actions. -/
theorem eq_of_toolbar_eq_batch {count : Nat} {buttons : List ActionButton}
    (h : grid.toolbar = .batch count buttons) :
    grid.selection.isEmpty = false ∧ count = grid.selection.size ∧
      buttons = grid.layout.actions.map grid.button := by
  cases hselected : grid.selection.isEmpty with
  | true =>
    rw [toolbar_of_unselected hselected] at h
    cases h
  | false =>
    rw [toolbar_of_selected hselected] at h
    cases h
    exact ⟨rfl, rfl, rfl⟩

theorem isEnabled_button : (grid.button action).isEnabled = true ↔
    grid.checkAction action = .ok () := by
  unfold button ActionButton.isEnabled
  cases grid.checkAction action with
  | ok => exact ⟨fun _ => rfl, fun _ => rfl⟩
  | error error => exact ⟨nofun, nofun⟩

theorem enables_iff : grid.toolbar.Enables action ↔ grid.checkAction action = .ok () := by
  constructor
  · rintro ⟨count, buttons, htoolbar, button, hbutton, rfl, henabled⟩
    obtain ⟨-, -, rfl⟩ := eq_of_toolbar_eq_batch htoolbar
    obtain ⟨other, -, rfl⟩ := List.mem_map.1 hbutton
    exact isEnabled_button.1 henabled
  · intro hcheck
    obtain ⟨hallowed, hselected, -⟩ := checkAction_eq_ok_iff.1 hcheck
    exact ⟨_, _, toolbar_of_selected hselected, grid.button action,
      List.mem_map_of_mem (List.contains_iff_mem.1 hallowed), rfl, isEnabled_button.2 hcheck⟩

/-! ## The truth of the toolbar -/

/-- The record that a single target gives is one of the collection, and the only one selected. -/
theorem mem_of_singleTarget {record : FileRecord} (hsingle : action.needsSingle = true)
    (h : grid.singleTarget action = .ok record) :
    record ∈ grid.records ∧ grid.selection.hashes.toList = [record.hash] := by
  unfold singleTarget at h
  cases hcheck : grid.checkAction action with
  | error error =>
    rw [hcheck] at h
    cases h
  | ok =>
    rw [hcheck] at h
    obtain ⟨-, -, hsize⟩ := checkAction_eq_ok_iff.1 hcheck
    cases hrows : grid.selected with
    | nil =>
      rw [hrows] at h
      cases h
    | cons first rest =>
      rw [hrows] at h
      cases h
      have hrow : record ∈ grid.selected := by
        rw [hrows]
        exact List.mem_cons_self
      obtain ⟨hrecord, hcontains⟩ := List.mem_filter.1 hrow
      refine ⟨hrecord, ?_⟩
      have hmem : record.hash ∈ grid.selection.hashes.toList :=
        HashSet.contains_iff_mem.1 hcontains
      -- The selection has at most one hash by the check, and at least that of the record.
      have hlength : grid.selection.hashes.toList.length ≤ 1 := hsize hsingle
      obtain ⟨hash, hhashes⟩ := List.length_eq_one_iff.1
        (Nat.le_antisymm hlength (List.length_pos_of_mem hmem))
      rw [hhashes] at hmem ⊢
      rw [List.mem_singleton.1 hmem]

theorem Consistent.truthful (h : Consistent grid) : Truthful grid where
  enabled action priceText hprice := by
    rw [h.attempt_eq_checkAction hprice]
    exact enables_iff
  reason count buttons htoolbar button hbutton text htext priceText := by
    obtain ⟨-, -, rfl⟩ := eq_of_toolbar_eq_batch htoolbar
    obtain ⟨action, -, rfl⟩ := List.mem_map.1 hbutton
    unfold Grid.button at htext
    cases hcheck : grid.checkAction action with
    | ok =>
      rw [hcheck] at htext
      cases htext
    | error error =>
      rw [hcheck] at htext
      exact ⟨error, attempt_of_checkAction_error hcheck priceText, Option.some.inj htext⟩
  unselected hunselected := by
    refine ⟨toolbar_of_unselected hunselected, fun action priceText => ?_⟩
    cases hcheck : grid.checkAction action with
    | ok =>
      obtain ⟨-, hselected, -⟩ := checkAction_eq_ok_iff.1 hcheck
      rw [hunselected] at hselected
      cases hselected
    | error error => exact ⟨error, attempt_of_checkAction_error hcheck priceText⟩
  count count buttons htoolbar := (eq_of_toolbar_eq_batch htoolbar).2.1
  target record htarget := by
    rcases htarget with hinfo | hdownload
    · exact mem_of_singleTarget rfl hinfo
    · exact mem_of_singleTarget rfl hdownload

/-- In every run of a grid the toolbar agrees with what the actions do: a button can be used exactly
if its action is not refused, and otherwise shows the message of the refusal; with nothing selected
the toolbar shows the filters and every action is refused; the number shown is that of the selected
hashes; and a record that an action is for is the one selected. -/
theorem truthful_after (target : Section) (past : List Event) :
    Truthful (after (new target) past) :=
  ((Consistent.new target).after past).truthful

/-- Two files are listed and one of them is selected. -/
def oneSelected : List Event :=
  [.toggleRow "a1", .finishLoad ⟨.storing, 1⟩
    (.ok [FileRecord.bare "a1" "notes", FileRecord.bare "b2" "film"]), .reload]

/-- The selected file can be hosted at a price that can be read, and it is the one that is shown. -/
theorem oneSelected_enables_host :
    Action.TakesPrice .host (some "2.5") ∧
      (after (new .storing) oneSelected).attempt .host (some "2.5") = .ok () ∧
      (after (new .storing) oneSelected).toolbar.Enables .host ∧
      (after (new .storing) oneSelected).info = .ok (.bare "a1" "notes") ∧
      (after (new .storing) oneSelected).selection.hashes.toList = ["a1"] := by
  have hprice : Action.TakesPrice .host (some "2.5") :=
    fun _ => ⟨⟨0x4004000000000000⟩, by decide +kernel⟩
  have hattempt : (after (new .storing) oneSelected).attempt .host (some "2.5") = .ok () := by
    decide +kernel
  have hinfo : (after (new .storing) oneSelected).info = .ok (.bare "a1" "notes") := by
    decide +kernel
  have htruthful := truthful_after .storing oneSelected
  exact ⟨hprice, hattempt, (htruthful.enabled .host _ hprice).2 hattempt, hinfo,
    (htruthful.target _ (Or.inl hinfo)).2⟩

end Grid

end FileMarket
