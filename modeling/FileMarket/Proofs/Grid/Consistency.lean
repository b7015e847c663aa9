import FileMarket.Proofs.Grid.History
import FileMarket.Proofs.Selection

/-!
# Consistency of a grid

What a grid remembers beside its records is about the records and the section that it shows
(`Consistent`): hashes that are selected or that an undo would select, filter criteria, the sort
column, and the load under way. Every rule keeps this (`Consistent.transition`), and what is refused
changes nothing at all, so both hold in every run (`consistent_after`).
-/

set_option autoImplicit false

namespace FileMarket

/-! ## Criteria and rows -/

/-- Whether a filter control is set. -/
def Criteria.isSet (criteria : Criteria) : FilterField → Bool
  | .type => criteria.kind.isSome
  | .size => criteria.size.isSome
  | .date => criteria.date.isSome
  | .price => criteria.price.isSome
  | .downloads => criteria.downloads.isSome

@[simp]
theorem Criteria.isSet_none (field : FilterField) : Criteria.none.isSet field = false := by
  cases field <;> rfl

/-- The result of a step that goes on after one that can fail. -/
theorem Outcome.exists_of_map_eq_ok {α β : Type} {f : α → β} {result : Outcome α} {b : β}
    (h : result.map f = .ok b) : ∃ a, result = .ok a ∧ f a = b := by
  cases result with
  | error error => cases h
  | ok a => exact ⟨a, rfl, Except.ok.inj h⟩

theorem Criteria.isSet_retain (criteria : Criteria) (field : FilterField) :
    (criteria.retain [field]).isSet field = criteria.isSet field := by
  cases field <;> rfl

/-- A control that is set leaves the others as they are. -/
theorem Criteria.retain_of_set {criteria criteria' : Criteria} {field : FilterField} {tag : String}
    {others : List FilterField} (h : criteria.set field tag = .ok criteria')
    (hothers : field ∉ others) : criteria'.retain others = criteria.retain others := by
  unfold set at h
  cases field <;> obtain ⟨setting, -, rfl⟩ := Outcome.exists_of_map_eq_ok h <;>
    simp only [retain, if_neg hothers]

theorem Criteria.isSet_of_set {criteria criteria' : Criteria} {field other : FilterField}
    {tag : String} (h : criteria.set field tag = .ok criteria') (hother : other ≠ field) :
    criteria'.isSet other = criteria.isSet other := by
  rw [← isSet_retain, retain_of_set h (mt List.mem_singleton.1 hother.symm), isSet_retain]

namespace Grid

/-- A row is one of the records. -/
theorem mem_records_of_mem_rows {grid : Grid} {today : Date} {record : FileRecord}
    (h : record ∈ grid.rows today) : record ∈ grid.records := by
  have hkept : record ∈ grid.criteria.apply today grid.records :=
    (grid.sort.sort_perm _).mem_iff.1 h
  exact (List.mem_filter.1 hkept).1

/-- A row that is added takes a place, or is put behind the others. -/
theorem eq_or_mem_of_mem_upsert {record row : FileRecord} {records : List FileRecord}
    (h : row ∈ upsert record records) : row = record ∨ row ∈ records := by
  induction records with
  | nil => exact .inl (List.mem_singleton.1 h)
  | cons first rest ih =>
    unfold upsert at h
    split at h
    · exact (List.mem_cons.1 h).imp_right (List.mem_cons_of_mem first)
    · rcases List.mem_cons.1 h with rfl | h
      · exact .inr List.mem_cons_self
      · exact (ih h).imp_right (List.mem_cons_of_mem first)

/-! ## The invariant -/

/-- Every hash of a set is that of a record. -/
def Names (records : List FileRecord) (set : HashSet) : Prop :=
  ∀ hash, set.contains hash = true → ∃ record ∈ records, record.hash = hash

/-- What a grid remembers is about its records and its section. -/
structure Consistent (grid : Grid) : Prop where
  selected : Names grid.records grid.selection.hashes
  undo : ∀ set, grid.selection.undo = some set → Names grid.records set
  criteria : ∀ field, grid.criteria.isSet field = true → grid.layout.showsFilter field = true
  sort : grid.layout.showsColumn grid.sort.column = true
  /-- The load under way is the one begun last, of the section shown. -/
  loading : ∀ token, grid.loading = some token → token = ⟨grid.current, grid.generation⟩

theorem names_empty (records : List FileRecord) : Names records .empty := by
  intro hash hmem
  cases hmem

/-- The table of a section has the column that it is sorted by at first. -/
theorem showsColumn_defaultSort (target : Section) :
    target.layout.showsColumn target.layout.defaultSort.column = true := by
  cases target <;> rfl

namespace Consistent

variable {grid grid' : Grid}

/-- Beginning a load changes nothing but the load. -/
theorem begun (h : Consistent grid) : Consistent grid.begun :=
  { h with loading := fun _ hloading => (Option.some.inj hloading).symm }

/-- A move leaves nothing behind. -/
theorem moved (target : Section) : Consistent (grid.moved target).begun where
  selected := names_empty _
  undo set hundo := by cases hundo
  criteria field hset := by
    rw [show (grid.moved target).begun.criteria = .none from rfl, Criteria.isSet_none] at hset
    cases hset
  sort := showsColumn_defaultSort target
  loading token hloading := (Option.some.inj hloading).symm

/-- Whatever becomes of the records, a selection that is dropped names none. -/
theorem deselected (h : Consistent grid) (hselection : grid'.selection = .empty)
    (hcriteria : grid'.criteria = grid.criteria) (hcurrent : grid'.current = grid.current)
    (hsort : grid'.sort = grid.sort)
    (hloading : ∀ token, grid'.loading = some token → token = ⟨grid'.current, grid'.generation⟩) :
    Consistent grid' where
  selected := by
    rw [hselection]
    exact names_empty _
  undo set hundo := by
    rw [hselection] at hundo
    cases hundo
  criteria := by
    rw [hcriteria, layout, hcurrent]
    exact h.criteria
  sort := by
    rw [hsort, layout, hcurrent]
    exact h.sort
  loading := hloading

/-- The header's check box: the undo is either used up or is the selection just left. -/
theorem toggleAll (h : Consistent grid) (today : Date) : Consistent (grid.toggleAll today) := by
  have hvisible : ∀ x ∈ (grid.rows today).map (·.hash),
      ∃ record ∈ grid.records, record.hash = x := by
    intro x hx
    obtain ⟨record, hrow, hhash⟩ := List.mem_map.1 hx
    exact ⟨record, mem_records_of_mem_rows hrow, hhash⟩
  cases hundo : grid.selection.undo with
  | some previous =>
    have hselection : (grid.toggleAll today).selection = ⟨previous, none⟩ := by
      simp only [Grid.toggleAll, Selection.toggleAll, hundo]
    refine ⟨?_, ?_, h.criteria, h.sort, h.loading⟩
    · rw [hselection]
      exact h.undo previous hundo
    · intro set hset
      rw [hselection] at hset
      cases hset
  | none =>
    have hselection : (grid.toggleAll today).selection =
        ⟨Selection.sweep grid.selection.hashes ((grid.rows today).map (·.hash)),
          some grid.selection.hashes⟩ := by
      simp only [Grid.toggleAll, Selection.toggleAll, hundo]
    refine ⟨?_, ?_, h.criteria, h.sort, h.loading⟩
    · rw [hselection]
      intro x hx
      exact hvisible x (Selection.mem_of_contains_sweep hx)
    · intro set hset
      rw [hselection] at hset
      obtain rfl := Option.some.inj hset
      exact h.selected

/-- Every rule keeps a grid consistent. -/
theorem transition {event : Event} {response : Response} (h : Consistent grid)
    (hn : Transition grid event response grid') : Consistent grid' := by
  -- A rule begins a load, drops the selection together with the records it was about, or changes
  -- one of the things that the invariant speaks of.
  cases hn with
  | switchTo target => exact moved target
  | refresh idle => exact h.begun
  | reload => exact h.begun
  | loaded token records awaited =>
    exact h.deselected rfl rfl rfl rfl fun token hloading => by cases hloading
  | loadFailed token error awaited =>
    exact { h with loading := fun token hloading => by cases hloading }
  | append record => exact h.deselected rfl rfl rfl rfl fun token hloading => by cases hloading
  | setFilter field tag criteria shown set =>
    refine ⟨h.selected, fun set hundo => (by cases hundo), fun other hset => ?_, h.sort, h.loading⟩
    by_cases hother : other = field
    · rw [hother]
      exact shown
    · rw [Criteria.isSet_of_set set hother] at hset
      exact h.criteria other hset
  | clearFilters =>
    refine ⟨h.selected, fun set hundo => (by cases hundo), fun field hset => ?_, h.sort, h.loading⟩
    rw [show grid.clearFilters.criteria = .none from rfl, Criteria.isSet_none] at hset
    cases hset
  | setSort spec shown => exact ⟨h.selected, h.undo, h.criteria, shown, h.loading⟩
  | clickColumn column shown => exact ⟨h.selected, h.undo, h.criteria, shown, h.loading⟩
  | toggleRow hash record known named =>
    refine ⟨fun x hx => ?_, fun set hundo => ?_, h.criteria, h.sort, h.loading⟩
    · rcases Selection.contains_toggle hx with rfl | hx
      · exact ⟨record, known, named⟩
      · exact h.selected x hx
    · rw [show (grid.selection.toggle hash).undo = none from Selection.toggle_undo _ _] at hundo
      cases hundo
  | toggleAll today => exact h.toggleAll today
  | clearSelection => exact h.deselected rfl rfl rfl rfl h.loading
  | clearError => exact { h with }
  | withheld | stale | prepared | shown | targeted | refused => exact h

theorem new (target : Section) : Consistent (new target) where
  selected := names_empty _
  undo set hundo := by cases hundo
  criteria field hset := by
    rw [show (Grid.new target).criteria = .none from rfl, Criteria.isSet_none] at hset
    cases hset
  sort := showsColumn_defaultSort target
  loading token hloading := by cases hloading

theorem after (h : Consistent grid) (past : List Event) : Consistent (after grid past) := by
  induction past with
  | nil => exact h
  | cons event past ih => exact ih.transition (transition_perform _ event)

end Consistent

/-- In every run of a grid, the selected hashes and those that an undo would select are hashes of
its records, the criteria are set only for filter controls of the section, the sort column is one of
the section's columns, and a load under way is the one begun last, of the section. What is refused,
stale or withheld leaves the grid as it was. -/
theorem consistent_after (target : Section) (past : List Event) :
    Consistent (after (new target) past) ∧
      ∀ event, (response (new target) past event).isRefusal = true →
        after (new target) (event :: past) = after (new target) past :=
  ⟨(Consistent.new target).after past, fun event hrefusal =>
    (transition_perform (after (new target) past) event).eq_of_isRefusal hrefusal⟩

end Grid

end FileMarket
