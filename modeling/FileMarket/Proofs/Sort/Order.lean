import FileMarket.Proofs.Text.NaturalOrder
import FileMarket.Sort.Records

/-!
# The order of records

The order that records are sorted by is a total preorder for every column and direction: the
instance `Std.TransCmp spec.compare`. Values of different kinds are not compared in any useful way,
but all values of one column are of one kind, which has a lawful order of its own
(`transCmp_of_values`): counts, amounts by the total order of all floating point values, days, and
names by the natural order. `consistent_orders` states the laws of both orders.

A record that lacks the value of a column (`FileRecord.lacks`) comes after all that have one, in
either direction.
-/

set_option autoImplicit false

namespace FileMarket

open Text

/-! ## The kinds of values -/

instance : Std.TransCmp Binary64.totalCompare :=
  inferInstanceAs (Std.TransCmp (compareOn Binary64.rank))

instance : Std.TransCmp Date.compare :=
  inferInstanceAs (Std.TransCmp (compareLex (compareOn Date.year)
    (compareLex (compareOn Date.month) (compareOn Date.day))))

/-- A total preorder taken in either direction. -/
instance {α : Type} (direction : Direction) (cmp : α → α → Ordering) [Std.TransCmp cmp] :
    Std.TransCmp fun a b => direction.apply (cmp a b) := by
  cases direction with
  | ascending => exact inferInstanceAs (Std.TransCmp cmp)
  | descending =>
    exact
      { eq_swap := congrArg Ordering.swap Std.OrientedCmp.eq_swap
        isLE_trans := fun {a b c} hab hbc => by
          have hswap : ∀ x y, Direction.descending.apply (cmp x y) = cmp y x :=
            fun x y => Std.OrientedCmp.eq_swap.symm
          rw [hswap] at hab hbc ⊢
          exact Std.TransCmp.isLE_trans hbc hab }

/-- Whether a record lacks the value of a column; a blank text is none. -/
def FileRecord.lacks (record : FileRecord) : Column → Bool
  | .name => allBlank record.name
  | .extension => record.extension.all allBlank
  | .hash => allBlank record.hash
  | .size => record.size.isNone
  | .downloads => record.downloads.isNone
  | .price => record.price.isNone
  | .date => record.date.isNone

namespace SortSpec

/-- Optional values in an order, the absent ones last. -/
def absentLast {α : Type} (cmp : α → α → Ordering) : Option α → Option α → Ordering
  | some a, some b => cmp a b
  | some _, none => .lt
  | none, some _ => .gt
  | none, none => .eq

instance {α : Type} (cmp : α → α → Ordering) [Std.TransCmp cmp] :
    Std.TransCmp (absentLast cmp) where
  eq_swap {a b} := by
    cases a with
    | none => cases b <;> rfl
    | some a =>
      cases b with
      | none => rfl
      | some b => exact @Std.OrientedCmp.eq_swap _ cmp _ a b
  isLE_trans {a b c} hab hbc := by
    cases c with
    | none => cases a <;> rfl
    | some c =>
      -- A value is present in each, for an absent one would come last.
      cases b with
      | none => cases hbc
      | some b =>
        cases a with
        | none => cases hab
        | some a => exact @Std.TransCmp.isLE_trans _ cmp _ a b c hab hbc

/-- A column whose values are all of one kind is sorted by the order of that kind. -/
theorem transCmp_of_values {column : Column} (direction : Direction) {α : Type} (key : α → SortKey)
    (value? : FileRecord → Option α)
    (h : ∀ record, record.sortKey? column = (value? record).map key)
    [Std.TransCmp fun a b => (key a).compare (key b)] :
    Std.TransCmp (SortSpec.compare ⟨column, direction⟩) := by
  have horder : SortSpec.compare ⟨column, direction⟩ = fun a b =>
      absentLast (fun x y => direction.apply ((key x).compare (key y))) (value? a) (value? b) := by
    funext a b
    show compareKeys direction (a.sortKey? column) (b.sortKey? column) = _
    rw [h a, h b]
    cases value? a <;> cases value? b <;> rfl
  rw [horder]
  exact { eq_swap := Std.OrientedCmp.eq_swap, isLE_trans := Std.TransCmp.isLE_trans }

/-- A text that is not blank. -/
def present? (s : String) : Option String := if allBlank s then none else some s

theorem ofText?_eq_map (s : String) : SortKey.ofText? s = (present? s).map .word := by
  unfold SortKey.ofText? present?
  split <;> rfl

instance (spec : SortSpec) : Std.TransCmp spec.compare := by
  have counts : Std.TransCmp fun m n : UInt64 => (SortKey.count m).compare (.count n) :=
    inferInstanceAs (Std.TransCmp (compareOn UInt64.toNat))
  have amounts : Std.TransCmp fun x y : Binary64 => (SortKey.amount x).compare (.amount y) :=
    inferInstanceAs (Std.TransCmp Binary64.totalCompare)
  have days : Std.TransCmp fun d e : Date => (SortKey.day d).compare (.day e) :=
    inferInstanceAs (Std.TransCmp Date.compare)
  have words : Std.TransCmp fun s t : String => (SortKey.word s).compare (.word t) :=
    inferInstanceAs (Std.TransCmp naturalCompare)
  obtain ⟨column, direction⟩ := spec
  -- Texts that are blank are left out of a column; the other columns have their values as they are.
  cases column with
  | name =>
    exact transCmp_of_values direction .word (present? ·.name) fun record => ofText?_eq_map _
  | extension =>
    refine transCmp_of_values direction .word (·.extension.bind present?) fun record => ?_
    show record.extension.bind SortKey.ofText? = _
    rw [Option.map_bind]
    exact congrArg record.extension.bind (funext ofText?_eq_map)
  | hash =>
    exact transCmp_of_values direction .word (present? ·.hash) fun record => ofText?_eq_map _
  | size => exact transCmp_of_values direction .count (·.size) fun record => rfl
  | downloads => exact transCmp_of_values direction .count (·.downloads) fun record => rfl
  | price => exact transCmp_of_values direction .amount (·.price) fun record => rfl
  | date => exact transCmp_of_values direction .day (·.date) fun record => rfl

/-! ## Records without a value -/

theorem lacks_iff {record : FileRecord} {column : Column} :
    record.lacks column = true ↔ record.sortKey? column = none := by
  have hblank : ∀ s : String, allBlank s = true ↔ SortKey.ofText? s = none := by
    intro s
    unfold SortKey.ofText?
    split <;> simp [*]
  cases column with
  | name => exact hblank record.name
  | extension =>
    show record.extension.all allBlank = true ↔ record.extension.bind SortKey.ofText? = none
    cases record.extension with
    | none => exact ⟨fun _ => rfl, fun _ => rfl⟩
    | some extension => exact hblank extension
  | hash => exact hblank record.hash
  | size | downloads | price | date =>
    exact Option.isNone_iff_eq_none.trans Option.map_eq_none_iff.symm

variable {spec : SortSpec} {a b : FileRecord}

/-- Records that lack the value are not told apart. -/
theorem compare_of_lacks (ha : a.lacks spec.column = true) (hb : b.lacks spec.column = true) :
    spec.compare a b = .eq := by
  rw [SortSpec.compare, lacks_iff.1 ha, lacks_iff.1 hb]
  rfl

/-- In either direction, only records that lack the value may come after one that does. -/
theorem lacks_of_compare_ne_gt (h : spec.compare a b ≠ .gt) (ha : a.lacks spec.column = true) :
    b.lacks spec.column = true := by
  rw [lacks_iff]
  cases hb : b.sortKey? spec.column with
  | none => rfl
  | some key =>
    rw [SortSpec.compare, lacks_iff.1 ha, hb] at h
    exact absurd rfl h

/-! ## The laws -/

/-- A chain of two steps that do not go down is one step that does not. -/
theorem ne_gt_trans {α : Type} {cmp : α → α → Ordering} [Std.TransCmp cmp] {x y z : α}
    (hxy : cmp x y ≠ .gt) (hyz : cmp y z ≠ .gt) : cmp x z ≠ .gt := by
  rw [Ne, ← Ordering.isLE_iff_ne_gt] at hxy hyz ⊢
  exact Std.TransCmp.isLE_trans hxy hyz

/-- The natural order is a linear order of all names: it tells any two apart, reverses when they are
exchanged, and is transitive. The order of records by any column, in either direction, is a total
preorder of all records, whatever values they hold. -/
theorem consistent_orders :
    (∀ s t : String, naturalCompare s t = .eq ↔ s = t) ∧
      (∀ s t : String, naturalCompare t s = (naturalCompare s t).swap) ∧
      (∀ s t u : String, naturalCompare s t ≠ .gt → naturalCompare t u ≠ .gt →
        naturalCompare s u ≠ .gt) ∧
      ∀ spec : SortSpec,
        (∀ a : FileRecord, spec.compare a a = .eq) ∧
          (∀ a b : FileRecord, spec.compare b a = (spec.compare a b).swap) ∧
          ∀ a b c : FileRecord, spec.compare a b ≠ .gt → spec.compare b c ≠ .gt →
            spec.compare a c ≠ .gt :=
  ⟨fun _ _ => Std.LawfulEqCmp.compare_eq_iff_eq, fun _ _ => Std.OrientedCmp.eq_swap,
    fun _ _ _ => ne_gt_trans, fun _ => ⟨fun _ => Std.ReflCmp.compare_self,
      fun _ _ => Std.OrientedCmp.eq_swap, fun _ _ _ => ne_gt_trans⟩⟩

/-- A record with a given price. -/
def priced (bits : UInt64) : FileRecord := { FileRecord.bare "" "" with price := some ⟨bits⟩ }

/-- Numbers in names count by their value, then by their zeros; the negative zero comes before zero,
and a value that is no number after it. -/
theorem numbered_and_priced_in_order :
    naturalCompare "file9" "File10" ≠ .gt ∧ naturalCompare "File10" "file010" ≠ .gt ∧
      naturalCompare "file9" "file010" ≠ .gt ∧
      (ascending .price).compare (priced 0x8000000000000000) (priced 0) ≠ .gt ∧
      (ascending .price).compare (priced 0) (priced 0x7FF8000000000000) ≠ .gt ∧
      (ascending .price).compare (priced 0x8000000000000000) (priced 0x7FF8000000000000) ≠ .gt := by
  have hnames :
      naturalCompare "file9" "File10" ≠ .gt ∧ naturalCompare "File10" "file010" ≠ .gt := by
    decide +kernel
  have hprices :
      (ascending .price).compare (priced 0x8000000000000000) (priced 0) ≠ .gt ∧
        (ascending .price).compare (priced 0) (priced 0x7FF8000000000000) ≠ .gt := by
    decide +kernel
  obtain ⟨-, -, names, records⟩ := consistent_orders
  exact ⟨hnames.1, hnames.2, names _ _ _ hnames.1 hnames.2, hprices.1, hprices.2,
    (records (ascending .price)).2.2 _ _ _ hprices.1 hprices.2⟩

end SortSpec

end FileMarket
