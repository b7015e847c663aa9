import FileMarket.Proofs.Sort.Order

/-!
# Sorting is stable

Sorting a list is putting its first record into the sorted rest, after the records that come before
it and before all others (`SortSpec.sort_cons`). So sorting and keeping the records with some
property can be done in either order (`SortSpec.sort_filter`), and what else is said of the sort
follows: records that compare equal keep their order, and those that lack the value of the column
stay in their order behind all others (`stably_sorted`).
-/

set_option autoImplicit false

namespace FileMarket.SortSpec

variable (spec : SortSpec)

/-! ## Sorted lists -/

theorem isLE_trans (a b c : FileRecord) (hab : (spec.compare a b).isLE = true)
    (hbc : (spec.compare b c).isLE = true) : (spec.compare a c).isLE = true :=
  Std.TransCmp.isLE_trans hab hbc

theorem isLE_total (a b : FileRecord) :
    ((spec.compare a b).isLE || (spec.compare b a).isLE) = true := by
  rw [@Std.OrientedCmp.eq_swap _ spec.compare _ b a]
  cases spec.compare a b <;> rfl

/-- In a sorted list no record comes before a smaller one. -/
theorem sorted_sort (records : List FileRecord) :
    (spec.sort records).Pairwise fun a b => spec.compare a b ≠ .gt :=
  (List.pairwise_mergeSort spec.isLE_trans spec.isLE_total records).imp Ordering.isLE_iff_ne_gt.1

/-- A sorted list stays as it is. -/
theorem sort_of_sorted {records : List FileRecord}
    (h : records.Pairwise fun a b => spec.compare a b ≠ .gt) : spec.sort records = records :=
  List.mergeSort_of_pairwise (h.imp Ordering.isLE_iff_ne_gt.2)

/-- A list in which the elements with a property stand in front is those and then the others. -/
theorem filter_append_filter_of_pairwise {α : Type} {xs : List α} {p : α → Bool}
    (h : xs.Pairwise fun a b => p b = true → p a = true) :
    xs.filter p ++ xs.filter (fun x => !p x) = xs := by
  induction xs with
  | nil => rfl
  | cons a rest ih =>
    obtain ⟨hahead, hrest⟩ := List.pairwise_cons.1 h
    cases ha : p a with
    | true =>
      rw [List.filter_cons_of_pos ha, List.filter_cons_of_neg (by simp [ha]), List.cons_append,
        ih hrest]
    | false =>
      have hnone : ∀ b ∈ a :: rest, p b = false := by
        intro b hb
        rcases List.mem_cons.1 hb with rfl | hb
        · exact ha
        · exact Bool.eq_false_iff.2 fun hpb => by simp [hahead b hb hpb] at ha
      rw [List.filter_eq_nil_iff.2 fun b hb => by simp [hnone b hb], List.nil_append,
        List.filter_eq_self.2 fun b hb => by simp [hnone b hb]]

/-! ## Putting a record in its place -/

/-- Whether a record comes before `a`, whichever of them came first in the list. -/
def smallerThan (a b : FileRecord) : Bool := spec.compare a b == .gt

theorem filter_smallerThan_append (a : FileRecord) (records : List FileRecord) :
    (spec.sort records).filter (spec.smallerThan a) ++
      (spec.sort records).filter (fun b => !spec.smallerThan a b) = spec.sort records := by
  apply filter_append_filter_of_pairwise
  -- A record before a smaller one is smaller itself, by transitivity.
  refine (spec.sorted_sort records).imp fun {b c} hbc hc => ?_
  simp only [smallerThan, beq_iff_eq] at hc ⊢
  by_contra hab
  exact ne_gt_trans hab hbc hc

/-- Sorting puts the first record of a list into the sorted rest, behind the smaller records and in
front of all others. -/
theorem sort_cons (a : FileRecord) (records : List FileRecord) :
    spec.sort (a :: records) = (spec.sort records).filter (spec.smallerThan a) ++
      a :: (spec.sort records).filter (fun b => !spec.smallerThan a b) := by
  obtain ⟨before, after, hcons, hrest, hbefore⟩ :=
    List.mergeSort_cons spec.isLE_trans spec.isLE_total a records
  change spec.sort (a :: records) = before ++ a :: after at hcons
  change spec.sort records = before ++ after at hrest
  have hsmaller : ∀ b ∈ before, spec.smallerThan a b = true := by
    intro b hb
    simpa [smallerThan, Ordering.isLE_eq_false] using hbefore b hb
  have hothers : ∀ b ∈ after, spec.smallerThan a b = false := by
    intro b hb
    have hsorted := spec.sorted_sort (a :: records)
    rw [hcons] at hsorted
    have hafter := (List.pairwise_cons.1 (List.pairwise_append.1 hsorted).2.1).1 b hb
    simpa [smallerThan] using hafter
  have hfront : (before ++ after).filter (spec.smallerThan a) = before := by
    rw [List.filter_append, List.filter_eq_self.2 hsmaller,
      List.filter_eq_nil_iff.2 fun b hb => by simp [hothers b hb], List.append_nil]
  have hback : (before ++ after).filter (fun b => !spec.smallerThan a b) = after := by
    rw [List.filter_append, List.filter_eq_nil_iff.2 fun b hb => by simp [hsmaller b hb],
      List.filter_eq_self.2 fun b hb => by simp [hothers b hb], List.nil_append]
  rw [hcons, hrest, hfront, hback]

/-- Sorting and keeping the records with a property can be done in either order. -/
theorem sort_filter (p : FileRecord → Bool) (records : List FileRecord) :
    spec.sort (records.filter p) = (spec.sort records).filter p := by
  -- The place of the first record is found by a filter of the sorted rest, and filters commute.
  induction records with
  | nil => rw [List.filter_nil, sort, List.mergeSort_nil, List.filter_nil]
  | cons a rest ih =>
    cases ha : p a with
    | true =>
      rw [List.filter_cons_of_pos ha, sort_cons, sort_cons, ih, List.filter_append,
        List.filter_cons_of_pos ha, List.filter_comm p, List.filter_comm p]
    | false =>
      rw [List.filter_cons_of_neg (by simp [ha]), ih, sort_cons, List.filter_append,
        List.filter_cons_of_neg (by simp [ha]), ← List.filter_append, filter_smallerThan_append]

/-- A selection of records of which no two are told apart keeps its order. -/
theorem filter_sort_of_alike {p : FileRecord → Bool}
    (h : ∀ a b, p a = true → p b = true → spec.compare a b = .eq) (records : List FileRecord) :
    (spec.sort records).filter p = records.filter p := by
  rw [← sort_filter]
  apply sort_of_sorted
  rw [List.pairwise_filter]
  refine List.pairwise_of_forall fun a b ha hb => ?_
  rw [h a b ha hb]
  exact nofun

/-- The records that lack the value of the column stand behind all others, in their order. -/
theorem exists_sort_eq_append_lacking (records : List FileRecord) :
    ∃ front, (∀ record ∈ front, record.lacks spec.column = false) ∧
      spec.sort records = front ++ records.filter (·.lacks spec.column) := by
  refine ⟨(spec.sort records).filter fun record => !record.lacks spec.column, ?_, ?_⟩
  · intro record hrecord
    simpa using (List.mem_filter.1 hrecord).2
  · have hlast : (spec.sort records).Pairwise fun a b =>
        (!b.lacks spec.column) = true → (!a.lacks spec.column) = true := by
      refine (spec.sorted_sort records).imp fun {a b} hab hb => ?_
      rw [Bool.not_eq_true'] at hb ⊢
      by_contra ha
      rw [lacks_of_compare_ne_gt hab (by simpa using ha)] at hb
      cases hb
    rw [← filter_sort_of_alike spec fun a b => compare_of_lacks]
    simpa using (filter_append_filter_of_pairwise hlast).symm

/-- Sorting a list by any column in either direction gives a permutation of it, in which no record
comes before a smaller one. Records that compare equal keep their order. The records that lack the
value of the column stand behind all others and keep their order too. What is sorted stays as it is
when it is sorted again. -/
theorem stably_sorted (records : List FileRecord) :
    (spec.sort records).Perm records ∧
      (spec.sort records).Pairwise (fun a b => spec.compare a b ≠ .gt) ∧
      (∀ record, (spec.sort records).filter (spec.compare record · == .eq) =
        records.filter (spec.compare record · == .eq)) ∧
      (∃ front, (∀ record ∈ front, record.lacks spec.column = false) ∧
        spec.sort records = front ++ records.filter (·.lacks spec.column)) ∧
      spec.sort (spec.sort records) = spec.sort records := by
  refine ⟨spec.sort_perm records, spec.sorted_sort records, fun record => ?_, ?_, ?_⟩
  · apply filter_sort_of_alike
    intro a b ha hb
    rw [beq_iff_eq] at ha hb
    -- Both are alike to the given record, and so to each other.
    rw [← hb]
    exact Std.TransCmp.congr_left (Std.OrientedCmp.eq_symm ha)
  · exact spec.exists_sort_eq_append_lacking records
  · exact spec.sort_of_sorted (spec.sorted_sort records)

end FileMarket.SortSpec
