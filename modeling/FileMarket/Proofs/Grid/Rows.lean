import FileMarket.Proofs.Grid.Consistency
import FileMarket.Proofs.Sort.Stability

/-!
# Criteria and the order of rows

Criteria that set no control in common can be put on one after the other, in either order, or all at
once (`Criteria.apply_apply`), and setting one more control is putting on one more criterion
(`Criteria.set_eq_union`). Since sorting keeps what a filter sees, the rows of a grid can as well be
filtered after they are sorted: a further criterion only takes rows away, and without criteria all
records show (`rows_narrow`).
-/

set_option autoImplicit false

namespace FileMarket

/-! ## Criteria put together -/

namespace Criteria

/-- The criteria of both; where both set a control, that of the first. -/
def union (c d : Criteria) : Criteria where
  kind := c.kind.or d.kind
  size := c.size.or d.size
  date := c.date.or d.date
  price := c.price.or d.price
  downloads := c.downloads.or d.downloads

/-- No control is set in both. -/
def Disjoint (c d : Criteria) : Prop := ∀ field, c.isSet field = true → d.isSet field = false

variable {c d : Criteria}

/-- A value passes a control that is set in at most one of two criteria exactly if it passes the
control of both. -/
theorem passes_or {β α : Type} {test : β → α → Bool} {x y : Option β}
    (h : x.isSome = true → y.isSome = false) (value : Option α) :
    passes test (x.or y) value = (passes test x value && passes test y value) := by
  cases x with
  | none => rfl
  | some bucket =>
    cases y with
    | none => exact (Bool.and_true _).symm
    | some other => cases h rfl

theorem matchesRecord_union (h : c.Disjoint d) (today : Date) (record : FileRecord) :
    (c.union d).matchesRecord today record =
      (c.matchesRecord today record && d.matchesRecord today record) := by
  simp only [matchesRecord, union, passes_or (h .type), passes_or (h .size), passes_or (h .date),
    passes_or (h .price), passes_or (h .downloads)]
  ac_rfl

/-- Criteria that set no control in common, put on one after the other, are the criteria put on
together. -/
theorem apply_apply (h : c.Disjoint d) (today : Date) (records : List FileRecord) :
    c.apply today (d.apply today records) = (c.union d).apply today records := by
  unfold apply
  rw [List.filter_filter]
  exact List.filter_congr fun record _ => (matchesRecord_union h today record).symm

/-- The order in which criteria are put on does not matter. -/
theorem apply_comm (c d : Criteria) (today : Date) (records : List FileRecord) :
    c.apply today (d.apply today records) = d.apply today (c.apply today records) :=
  List.filter_comm _ _ records

/-- A criterion alone sets no control but its own. -/
theorem disjoint_of_set {field : FilterField} {tag : String} {added : Criteria}
    (hunset : c.isSet field = false) (hadded : none.set field tag = .ok added) :
    c.Disjoint added := by
  intro other hother
  have hne : other ≠ field := by
    rintro rfl
    rw [hunset] at hother
    cases hother
  rw [isSet_of_set hadded hne, isSet_none]

/-- Setting a control that was not set puts its criterion to the others. -/
theorem set_eq_union {field : FilterField} {tag : String} {added : Criteria}
    (hunset : c.isSet field = false) (hadded : none.set field tag = .ok added) :
    c.set field tag = .ok (c.union added) := by
  unfold set at hadded ⊢
  cases field <;> obtain ⟨setting, hsetting, rfl⟩ := Outcome.exists_of_map_eq_ok hadded <;>
    simp only [isSet, Option.isSome_eq_false_iff, Option.isNone_iff_eq_none] at hunset <;>
    simp [union, none, hsetting, hunset, Except.map]

end Criteria

/-! ## Rows -/

namespace Grid

/-- A further criterion keeps those of the rows that meet it. -/
theorem rows_setFilter {grid : Grid} {field : FilterField} {tag : String} {added : Criteria}
    (hshown : grid.layout.showsFilter field = true) (hunset : grid.criteria.isSet field = false)
    (hadded : Criteria.none.set field tag = .ok added) :
    ∃ grid', grid.setFilter field tag = .ok grid' ∧
      ∀ today, grid'.rows today = (grid.rows today).filter (added.matchesRecord today) := by
  refine ⟨{ grid with criteria := grid.criteria.union added, selection := grid.selection.settle },
    ?_, fun today => ?_⟩
  · unfold setFilter
    rw [hshown, Criteria.set_eq_union hunset hadded]
    rfl
  · have hdisjoint := Criteria.disjoint_of_set hunset hadded
    show grid.sort.sort ((grid.criteria.union added).apply today grid.records) = _
    rw [← Criteria.apply_apply hdisjoint, Criteria.apply_comm]
    exact grid.sort.sort_filter _ _

/-- Without criteria all records show. -/
theorem rows_clearFilters (grid : Grid) (today : Date) :
    grid.clearFilters.rows today = grid.sort.sort grid.records := by
  have hall : Criteria.none.apply today grid.records = grid.records :=
    List.filter_eq_self.2 fun _ _ => rfl
  show grid.sort.sort (Criteria.none.apply today grid.records) = _
  rw [hall]

/-- Filtering and sorting can be done in either order. So setting a control that was not set leaves
exactly the rows that meet the criterion, in their order, and setting all controls back brings all
records back, sorted. Criteria that set no control in common do the same one after the other, in
either order, as together. -/
theorem rows_narrow :
    (∀ (spec : SortSpec) (criteria : Criteria) (today : Date) (records : List FileRecord),
        spec.sort (criteria.apply today records) = criteria.apply today (spec.sort records)) ∧
      (∀ (grid : Grid) (field : FilterField) (tag : String) (added : Criteria),
        grid.layout.showsFilter field = true → grid.criteria.isSet field = false →
          Criteria.none.set field tag = .ok added →
            ∃ grid', grid.setFilter field tag = .ok grid' ∧ ∀ today,
              grid'.rows today = (grid.rows today).filter (added.matchesRecord today)) ∧
      (∀ (grid : Grid) (today : Date),
        grid.clearFilters.rows today = grid.sort.sort grid.records) ∧
      ∀ c d : Criteria, c.Disjoint d → ∀ (today : Date) (records : List FileRecord),
        c.apply today (d.apply today records) = (c.union d).apply today records ∧
          d.apply today (c.apply today records) = (c.union d).apply today records := by
  refine ⟨fun spec criteria today records => spec.sort_filter _ records,
    fun grid field tag added => rows_setFilter, rows_clearFilters,
    fun c d hdisjoint today records => ⟨Criteria.apply_apply hdisjoint today records, ?_⟩⟩
  rw [Criteria.apply_comm]
  exact Criteria.apply_apply hdisjoint today records

/-- A short text, a long text and a film are listed, and only texts are shown. -/
def textsShown : Grid :=
  after (new .storing) [.setFilter .type "document", .finishLoad ⟨.storing, 1⟩ (.ok [
      { FileRecord.bare "a1" "short" with extension := some "txt", size := some 10 },
      { FileRecord.bare "b2" "long" with extension := some "txt", size := some 5000000 },
      { FileRecord.bare "c3" "film" with extension := some "mp4", size := some 20 }]), .reload]

/-- The criterion that a file is smaller than a million bytes. -/
def isSmall : Criteria := { Criteria.none with size := some .under1MB }

/-- Of the texts shown one is short; the film stays hidden. -/
theorem textsShown_narrowed :
    (textsShown.rows default).map (·.hash) = ["a1", "b2"] ∧
      textsShown.layout.showsFilter .size = true ∧ textsShown.criteria.isSet .size = false ∧
      Criteria.none.set .size "less1mb" = .ok isSmall ∧
      (∃ grid', textsShown.setFilter .size "less1mb" = .ok grid' ∧
        (grid'.rows default).map (·.hash) = ["a1"]) ∧
      textsShown.criteria.Disjoint isSmall ∧
      textsShown.criteria.apply default (isSmall.apply default textsShown.records) =
        (textsShown.criteria.union isSmall).apply default textsShown.records := by
  obtain ⟨-, narrow, -, together⟩ := rows_narrow
  have hshown : textsShown.layout.showsFilter .size = true := by decide +kernel
  have hunset : textsShown.criteria.isSet .size = false := by decide +kernel
  have hadded : Criteria.none.set .size "less1mb" = .ok isSmall := by rfl
  have hdisjoint : textsShown.criteria.Disjoint isSmall := Criteria.disjoint_of_set hunset hadded
  obtain ⟨grid', hset, hrows⟩ := narrow textsShown .size "less1mb" isSmall hshown hunset hadded
  -- None of the records has a date, so the sort leaves them in their order.
  have hsorted : textsShown.rows default =
      textsShown.criteria.apply default textsShown.records :=
    SortSpec.sort_of_sorted _ (by decide +kernel)
  refine ⟨?_, hshown, hunset, hadded, ⟨grid', hset, ?_⟩, hdisjoint,
    (together _ _ hdisjoint default textsShown.records).1⟩
  · rw [hsorted]
    decide +kernel
  · rw [hrows default, hsorted]
    decide +kernel

end Grid

end FileMarket
