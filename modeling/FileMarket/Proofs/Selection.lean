import FileMarket.Selection
import Mathlib.Tactic

/-!
# Laws of selections

What the operations on sets of hashes do to membership, and which hashes a selection can hold after
a use of a check box: those it held before, and those of the rows that were used. A set is determined
by its members (`HashSet.ext`), so the header's check box makes the same of the same rows in any
order (`Selection.sweep_congr`).
-/

set_option autoImplicit false

namespace FileMarket

namespace HashSet

theorem contains_iff_mem {set : HashSet} {hash : String} :
    set.contains hash = true ↔ hash ∈ set.toList :=
  List.contains_iff_mem

@[simp]
theorem contains_empty (hash : String) : empty.contains hash = false := rfl

@[simp]
theorem contains_insert {set : HashSet} {hash x : String} :
    (set.insert hash).contains x = true ↔ x = hash ∨ set.contains x = true := by
  rw [contains_iff_mem, contains_iff_mem]
  exact mem_insertSorted

@[simp]
theorem contains_erase {set : HashSet} {hash x : String} :
    (set.erase hash).contains x = true ↔ set.contains x = true ∧ x ≠ hash := by
  rw [contains_iff_mem, contains_iff_mem]
  simp [erase]

@[simp]
theorem contains_ofList {hashes : List String} {x : String} :
    (ofList hashes).contains x = true ↔ x ∈ hashes := by
  induction hashes with
  | nil => simp [ofList]
  | cons hash rest ih =>
    have hcons : ofList (hash :: rest) = (ofList rest).insert hash := rfl
    rw [hcons, contains_insert, ih, List.mem_cons]

/-- No hash stands in a set twice. -/
theorem nodup_toList (set : HashSet) : set.toList.Nodup := set.ascending.imp String.ne_of_lt

/-- Sets with the same members are equal, for each is kept in its one ascending order. -/
theorem ext {set set' : HashSet}
    (h : ∀ x, set.contains x = true ↔ set'.contains x = true) : set = set' := by
  obtain ⟨xs, hxs⟩ := set
  obtain ⟨ys, hys⟩ := set'
  have hmem : ∀ x, x ∈ xs ↔ x ∈ ys := by
    intro x
    rw [← List.contains_iff_mem, ← List.contains_iff_mem]
    exact h x
  have hperm : xs.Perm ys :=
    (List.perm_ext_iff_of_nodup (nodup_toList ⟨xs, hxs⟩) (nodup_toList ⟨ys, hys⟩)).2 hmem
  obtain rfl : xs = ys :=
    hperm.eq_of_pairwise (fun _ _ _ _ hab hba => (String.lt_asymm hab hba).elim) hxs hys
  rfl

/-- A set that holds a hash does not change when the hash is put in. -/
theorem insert_of_contains {set : HashSet} {hash : String} (h : set.contains hash = true) :
    set.insert hash = set := by
  refine ext fun x => ?_
  rw [contains_insert]
  constructor
  · rintro (rfl | hx)
    · exact h
    · exact hx
  · exact .inr

/-- Hashes put in one after the other. -/
theorem contains_foldl_insert {set : HashSet} {hashes : List String} {x : String} :
    (hashes.foldl insert set).contains x = true ↔ x ∈ hashes ∨ set.contains x = true := by
  induction hashes generalizing set with
  | nil => simp
  | cons hash hashes ih =>
    rw [List.foldl_cons, ih, contains_insert, List.mem_cons]
    tauto

theorem isEmpty_eq_false_iff {set : HashSet} :
    set.isEmpty = false ↔ ∃ hash, set.contains hash = true := by
  simp only [contains_iff_mem, isEmpty, List.isEmpty_eq_false_iff_exists_mem]

end HashSet

namespace Selection

/-- The header's check box selects visible rows only. -/
theorem mem_of_contains_sweep {hashes : HashSet} {visible : List String} {x : String}
    (h : (sweep hashes visible).contains x = true) : x ∈ visible := by
  unfold sweep at h
  split at h
  · cases h
  · exact HashSet.contains_ofList.1 h

/-- The header's check box looks at which rows are visible, not at their order. -/
theorem sweep_congr (hashes : HashSet) {visible visible' : List String}
    (h : ∀ x, x ∈ visible ↔ x ∈ visible') : sweep hashes visible = sweep hashes visible' := by
  have hset : HashSet.ofList visible = HashSet.ofList visible' := by
    apply HashSet.ext
    intro x
    rw [HashSet.contains_ofList, HashSet.contains_ofList]
    exact h x
  have hall : visible.all hashes.contains = visible'.all hashes.contains := by
    rw [Bool.eq_iff_iff, List.all_eq_true, List.all_eq_true]
    exact forall_congr' fun x => imp_congr_left (h x)
  have hempty : visible.isEmpty = visible'.isEmpty := by
    rw [Bool.eq_iff_iff, List.isEmpty_iff, List.isEmpty_iff, List.eq_nil_iff_forall_not_mem,
      List.eq_nil_iff_forall_not_mem]
    exact forall_congr' fun x => not_congr (h x)
  unfold sweep
  rw [hset, hall, hempty]

/-- The header's check box used twice in a row changes nothing, if the undo that is remembered is
one that a single use would lead here from. -/
theorem toggleAll_toggleAll {selection : Selection} {visible : List String}
    (h : ∀ previous, selection.undo = some previous →
      (⟨previous, none⟩ : Selection).toggleAll visible = selection) :
    (selection.toggleAll visible).toggleAll visible = selection := by
  obtain ⟨hashes, undo⟩ := selection
  cases undo with
  | none => rfl
  | some previous => exact h previous rfl

/-- A row's check box adds at most the hash of the row. -/
theorem contains_toggle {selection : Selection} {hash x : String}
    (h : (selection.toggle hash).hashes.contains x = true) :
    x = hash ∨ selection.hashes.contains x = true := by
  unfold toggle at h
  split at h
  · exact Or.inr (HashSet.contains_erase.1 h).1
  · exact HashSet.contains_insert.1 h

@[simp]
theorem toggle_undo (selection : Selection) (hash : String) :
    (selection.toggle hash).undo = none := by
  unfold toggle
  split <;> rfl

end Selection

end FileMarket
