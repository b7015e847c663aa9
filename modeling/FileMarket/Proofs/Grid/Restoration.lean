import FileMarket.Proofs.Grid.Consistency

/-!
# The header's check box as its own undo

The header's check box keeps the selection that it replaces, and a second use goes back to it. Used
twice in a row it changes nothing, whatever was done before (`toggleAll_restores`). For a grid whose
undo is used up this is plain; while an undo is remembered it needs the invariant `Retraceable`: one
use of the check box, from the selection that is remembered, leads to the present one. Filters,
listings and single rows drop the undo, and sorting does not change which rows are visible.
-/

set_option autoImplicit false

namespace FileMarket.Grid

/-! ## The visible hashes -/

/-- The hashes of the visible rows on a given day. -/
def visible (grid : Grid) (today : Date) : List String := (grid.rows today).map (·.hash)

/-- Sorting does not change which rows are visible. -/
theorem mem_visible_sorted (grid : Grid) (spec : SortSpec) (today : Date) (x : String) :
    x ∈ ({ grid with sort := spec } : Grid).visible today ↔ x ∈ grid.visible today := by
  have hsorted : (({ grid with sort := spec } : Grid).rows today).Perm (grid.rows today) :=
    (spec.sort_perm _).trans (grid.sort.sort_perm _).symm
  exact (hsorted.map _).mem_iff

/-! ## The invariant -/

/-- From the selection that an undo would bring back, one use of the header's check box leads to the
present selection. -/
def Retraceable (grid : Grid) (today : Date) : Prop :=
  ∀ previous, grid.selection.undo = some previous →
    (⟨previous, none⟩ : Selection).toggleAll (grid.visible today) = grid.selection

namespace Retraceable

variable {grid grid' : Grid} {today : Date}

/-- Nothing is claimed of a grid that remembers no undo. -/
theorem settled (h : grid.selection.undo = none) : Retraceable grid today := by
  intro previous hundo
  rw [h] at hundo
  cases hundo

/-- A step that leaves the selection and the set of visible rows. -/
theorem keep (h : Retraceable grid today) (hselection : grid'.selection = grid.selection)
    (hvisible : ∀ x, x ∈ grid.visible today ↔ x ∈ grid'.visible today) :
    Retraceable grid' today := by
  intro previous hundo
  rw [hselection] at hundo ⊢
  rw [← h previous hundo]
  show (⟨Selection.sweep previous _, some previous⟩ : Selection) = ⟨Selection.sweep previous _, _⟩
  rw [Selection.sweep_congr previous hvisible]

/-- The header's check box either uses the undo up or has just made the selection from it. -/
theorem toggleAll (grid : Grid) (today : Date) : Retraceable (grid.toggleAll today) today := by
  cases hundo : grid.selection.undo with
  | some previous =>
    apply settled
    simp only [Grid.toggleAll, Selection.toggleAll, hundo]
  | none =>
    intro previous hprevious
    have hselection : (grid.toggleAll today).selection =
        ⟨Selection.sweep grid.selection.hashes (grid.visible today),
          some grid.selection.hashes⟩ := by
      simp only [Grid.toggleAll, Selection.toggleAll, hundo, visible]
    rw [hselection] at hprevious ⊢
    obtain rfl := Option.some.inj hprevious
    rfl

/-- Every rule keeps a grid retraceable, if the header's check box is used on one day only. -/
theorem transition {event : Event} {response : Response} (h : Retraceable grid today)
    (hday : ∀ day, event = .toggleAll day → day = today)
    (hn : Transition grid event response grid') : Retraceable grid' today := by
  cases hn with
  | toggleAll day =>
    obtain rfl := hday day rfl
    exact toggleAll grid day
  -- A new order of the rows is the one change that an undo outlives.
  | setSort spec shown => exact h.keep rfl fun x => (mem_visible_sorted grid spec today x).symm
  | clickColumn column shown =>
    exact h.keep rfl fun x => (mem_visible_sorted grid (grid.sort.clicked column) today x).symm
  | toggleRow hash record known named => exact settled (Selection.toggle_undo _ _)
  | switchTo | loaded | append | setFilter | clearFilters | clearSelection => exact settled rfl
  | refresh | withheld | reload | loadFailed | stale | clearError | prepared | shown | targeted
  | refused => exact h.keep rfl fun x => Iff.rfl

theorem after (target : Section) {past : List Event}
    (h : ∀ day, Event.toggleAll day ∈ past → day = today) :
    Retraceable (after (new target) past) today := by
  induction past with
  | nil => exact settled rfl
  | cons event past ih =>
    have hpast := ih fun day hmem => h day (List.mem_cons_of_mem event hmem)
    refine hpast.transition ?_ (transition_perform _ event)
    rintro day rfl
    exact h day List.mem_cons_self

end Retraceable

/-- In every run of a grid in which the header's check box is used on one day only, two further uses
of it lead back to the same grid, the selection and the undo that is remembered included. While an
undo is remembered, one use of the check box makes the present selection of it. -/
theorem toggleAll_restores (target : Section) (today : Date) (past : List Event)
    (h : ∀ day, Event.toggleAll day ∈ past → day = today) :
    after (new target) (.toggleAll today :: .toggleAll today :: past) = after (new target) past ∧
      ∀ previous, (after (new target) past).selection.undo = some previous →
        (⟨previous, none⟩ : Selection).toggleAll
          (((after (new target) past).rows today).map (·.hash)) =
            (after (new target) past).selection := by
  have hretraceable := Retraceable.after target h
  refine ⟨?_, hretraceable⟩
  show ((after (new target) past).toggleAll today).toggleAll today = after (new target) past
  generalize after (new target) past = grid at hretraceable ⊢
  have hselection : (grid.selection.toggleAll (grid.visible today)).toggleAll
      (grid.visible today) = grid.selection := Selection.toggleAll_toggleAll hretraceable
  -- The rows do not depend on the selection, so both uses see the same rows.
  calc (grid.toggleAll today).toggleAll today
      = { grid with
          selection := (grid.selection.toggleAll (grid.visible today)).toggleAll
            (grid.visible today) } := rfl
    _ = grid := by rw [hselection]

/-- A text and a film are listed, the film is selected and then hidden by a filter, and the header's
check box is used once. -/
def hiddenFilm : List Event :=
  [.toggleAll default, .setFilter .type "document", .toggleRow "b2",
    .finishLoad ⟨.storing, 1⟩ (.ok [{ FileRecord.bare "a1" "notes" with extension := some "txt" },
      { FileRecord.bare "b2" "film" with extension := some "mp4" }]), .reload]

theorem hiddenFilm_restored :
    (after (new .storing) hiddenFilm).selection.undo = some (.ofList ["b2"]) ∧
      (after (new .storing) hiddenFilm).selection.hashes = .ofList ["a1"] ∧
      after (new .storing) (.toggleAll default :: .toggleAll default :: hiddenFilm) =
        after (new .storing) hiddenFilm := by
  refine ⟨by decide +kernel, by decide +kernel, (toggleAll_restores .storing default hiddenFilm ?_).1⟩
  intro day hday
  simpa [hiddenFilm] using hday

end FileMarket.Grid
