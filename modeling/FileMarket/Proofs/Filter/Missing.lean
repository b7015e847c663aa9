import FileMarket.Proofs.FileKind
import FileMarket.Proofs.Filter.Tags
import FileMarket.Proofs.Filter.Windows
import FileMarket.Proofs.Sort.Stability

/-!
# Missing attributes

A filter control and the column of the same heading agree on which records lack the attribute that
both look at: exactly those that every option of the control keeps have no value to be sorted by,
and come last in either direction (`missing_for_filter_and_sort`). For no attribute is in every
bucket of its control (`passes_all_iff`), whatever its value: an amount that is no number is in none
of them.
-/

set_option autoImplicit false

namespace FileMarket

open Text

/-! ## A value that is present -/

/-- A control keeps a value under all its options exactly if the value is absent, since no value is
in every bucket. -/
theorem Criteria.passes_all_iff {β α : Type} {test : β → α → Bool}
    (excluded : ∀ value, ∃ bucket, test bucket value = false) (value : Option α) :
    (∀ bucket, passes test (some bucket) value = true) ↔ value = .none := by
  constructor
  · intro hall
    cases value with
    | none => rfl
    | some value =>
      obtain ⟨bucket, hbucket⟩ := excluded value
      have hkept : test bucket value = true := hall bucket
      rw [hbucket] at hkept
      cases hkept
  · rintro rfl bucket
    rfl

theorem FileKind.exists_ne (kind : FileKind) : ∃ bucket : FileKind, (bucket == kind) = false := by
  cases kind with
  | document => exact ⟨.media, by decide⟩
  | media | other => exact ⟨.document, by decide⟩

/-- The last bucket begins where the one before ends. -/
theorem SizeBucket.exists_not_contains (size : UInt64) :
    ∃ bucket : SizeBucket, bucket.contains size = false := by
  by_cases hsmall : size < 1000000000
  · exact ⟨.over1GB, decide_eq_false (UInt64.not_le.2 hsmall)⟩
  · exact ⟨.under1GB, decide_eq_false hsmall⟩

/-- No date is in this year and in the one before. -/
theorem DateBucket.exists_not_contains {today : Date} (h : firstYear < today.year) (date : Date) :
    ∃ bucket : DateBucket, bucket.contains today date = false := by
  cases hlast : lastYear.contains today date with
  | false => exact ⟨.lastYear, hlast⟩
  | true =>
    refine ⟨.thisYear, Bool.eq_false_iff.2 fun hthis => ?_⟩
    -- The year before is a year of the calendar, so the windows are apart.
    have hbefore := (contains_lastYear_iff h).1 hlast
    have hyear := (contains_thisYear_iff.1 hthis).1
    omega

theorem PriceBucket.not_contains_of_isNaN {price : Binary64} (h : price.isNaN = true)
    (bucket : PriceBucket) : bucket.contains price = false := by
  cases bucket <;> simp [contains, Binary64.lt, Binary64.le, h]

/-- What is below five is not above twenty. -/
theorem PriceBucket.exists_not_contains (price : Binary64) :
    ∃ bucket : PriceBucket, bucket.contains price = false := by
  cases hsmall : price.lt five with
  | false => exact ⟨.under5, hsmall⟩
  | true =>
    refine ⟨.over20, Bool.eq_false_iff.2 fun hgreat => ?_⟩
    have horder : five.position < twenty.position := by decide
    simp only [contains, Binary64.lt, Bool.and_eq_true, decide_eq_true_eq] at hsmall hgreat
    exact absurd (hsmall.2.trans horder) (not_lt.2 hgreat.2.le)

theorem DownloadsBucket.exists_not_contains (downloads : UInt64) :
    ∃ bucket : DownloadsBucket, bucket.contains downloads = false := by
  by_cases hfew : downloads < 100
  · refine ⟨.over1000, decide_eq_false fun hmany => ?_⟩
    have horder : (1000 : UInt64) < 100 := UInt64.lt_trans hmany hfew
    exact absurd horder (by decide)
  · exact ⟨.under100, decide_eq_false hfew⟩

theorem FileRecord.kind?_eq_none_iff (record : FileRecord) :
    record.kind? = none ↔ record.sortKey? .extension = none := by
  rw [← SortSpec.lacks_iff]
  show record.extension.bind FileKind.of? = none ↔ record.extension.all allBlank = true
  cases record.extension with
  | none => exact iff_of_true rfl rfl
  | some extension => exact FileKind.of?_eq_none_iff extension

/-! ## One control -/

/-- The column with the heading of a control. -/
def FilterField.column : FilterField → Column
  | .type => .extension
  | .size => .size
  | .date => .date
  | .price => .price
  | .downloads => .downloads

example : ∀ field ∈ FilterField.all, field.column.header = field.label := by decide

namespace Criteria

/-- Whether a control that is set alone, by a tag, keeps a record. -/
def Keeps (field : FilterField) (today : Date) (record : FileRecord) (tag : String) : Prop :=
  ∃ criteria, Criteria.none.set field tag = .ok criteria ∧
    criteria.matchesRecord today record = true

theorem setting_tag {β : Type} [Bucket β] [LawfulBucket β] (b : β) :
    setting β (Bucket.tag b) = .ok (some b) :=
  setting_of_tag (LawfulBucket.trim_tag b).symm

/-- What a control looks at is absent exactly if every option keeps the record. -/
theorem keeps_all_iff {β α : Type} [Bucket β] [LawfulBucket β] {test : β → α → Bool}
    {today : Date} {record : FileRecord} {value : Option α} (put : Option β → Criteria)
    (looks : ∀ b, (put (some b)).matchesRecord today record = passes test (some b) value)
    (excluded : ∀ value, ∃ bucket, test bucket value = false) :
    (∀ option ∈ (Bucket.all : List β).map fun b => (Bucket.tag b, Bucket.label b),
        ∃ criteria, (setting β option.1).map put = .ok criteria ∧
          criteria.matchesRecord today record = true) ↔ value = .none := by
  have hset : ∀ b : β, (setting β (Bucket.tag b)).map put = .ok (put (some b)) := by
    intro b
    rw [setting_tag]
    rfl
  rw [← passes_all_iff excluded]
  constructor
  · intro hall b
    obtain ⟨criteria, hcriteria, hkept⟩ :=
      hall _ (List.mem_map_of_mem (LawfulBucket.mem_all b))
    rw [hset] at hcriteria
    rw [← looks, Except.ok.inj hcriteria]
    exact hkept
  · intro hall option hoption
    obtain ⟨b, -, rfl⟩ := List.mem_map.1 hoption
    exact ⟨put (some b), hset b, by rw [looks, hall b]⟩

/-- Every option of a control keeps a record exactly if the record has no value in the column of the
same heading. -/
theorem keeps_all_iff_sortKey? {today : Date} (h : firstYear < today.year) (field : FilterField)
    (record : FileRecord) :
    (∀ option ∈ field.options, Keeps field today record option.1) ↔
      record.sortKey? field.column = .none := by
  cases field with
  | type =>
    rw [FilterField.column, ← record.kind?_eq_none_iff]
    exact keeps_all_iff ({ none with kind := · }) (fun b => by simp [matchesRecord, none, passes])
      FileKind.exists_ne
  | size =>
    exact (keeps_all_iff ({ none with size := · }) (fun b => by simp [matchesRecord, none, passes])
      SizeBucket.exists_not_contains).trans Option.map_eq_none_iff.symm
  | date =>
    exact (keeps_all_iff ({ none with date := · }) (fun b => by simp [matchesRecord, none, passes])
      (DateBucket.exists_not_contains h)).trans Option.map_eq_none_iff.symm
  | price =>
    exact (keeps_all_iff ({ none with price := · }) (fun b => by simp [matchesRecord, none, passes])
      PriceBucket.exists_not_contains).trans Option.map_eq_none_iff.symm
  | downloads =>
    exact (keeps_all_iff ({ none with downloads := · })
      (fun b => by simp [matchesRecord, none, passes])
      DownloadsBucket.exists_not_contains).trans Option.map_eq_none_iff.symm

/-- Every option of a control sets it. -/
theorem exists_set_of_mem_options {field : FilterField} {option : String × String}
    (h : option ∈ field.options) : ∃ criteria, Criteria.none.set field option.1 = .ok criteria := by
  cases field <;> obtain ⟨b, -, rfl⟩ := List.mem_map.1 h <;> rw [set, setting_tag] <;>
    exact ⟨_, rfl⟩

/-- A record that has a value in the column is hidden by some option. -/
theorem exists_option_hides {today : Date} (h : firstYear < today.year) {field : FilterField}
    {record : FileRecord} (present : record.sortKey? field.column ≠ .none) :
    ∃ option ∈ field.options, ∃ criteria, Criteria.none.set field option.1 = .ok criteria ∧
      criteria.matchesRecord today record = false := by
  by_contra hnone
  refine present ((keeps_all_iff_sortKey? h field record).1 fun option hoption => ?_)
  obtain ⟨criteria, hset⟩ := exists_set_of_mem_options hoption
  refine ⟨criteria, hset, ?_⟩
  by_contra hhidden
  exact hnone ⟨option, hoption, criteria, hset, Bool.eq_false_iff.2 hhidden⟩

/-- A price that is no number is hidden by every option. -/
theorem not_keeps_of_isNaN {today : Date} {record : FileRecord} {price : Binary64}
    (hprice : record.price = some price) (hnan : price.isNaN = true) {option : String × String}
    (hoption : option ∈ FilterField.price.options) : ¬ Keeps .price today record option.1 := by
  rintro ⟨criteria, hset, hkept⟩
  obtain ⟨b, -, rfl⟩ := List.mem_map.1 hoption
  rw [set, setting_tag] at hset
  obtain rfl := Except.ok.inj hset
  have hbucket := PriceBucket.not_contains_of_isNaN hnan b
  simp [matchesRecord, none, passes, hprice, hbucket] at hkept

end Criteria

/-- Sorting by a column in either direction leaves the records without a value for the end. -/
theorem SortSpec.sort_eq_append_missing (spec : SortSpec) (records : List FileRecord) :
    ∃ front, (∀ record ∈ front, record.sortKey? spec.column ≠ none) ∧
      spec.sort records = front ++ records.filter fun r => (r.sortKey? spec.column).isNone := by
  obtain ⟨front, hfront, hsort⟩ := spec.exists_sort_eq_append_lacking records
  have hmissing : ∀ record : FileRecord,
      record.lacks spec.column = (record.sortKey? spec.column).isNone := by
    intro record
    rw [Bool.eq_iff_iff, lacks_iff, Option.isNone_iff_eq_none]
  refine ⟨front, fun record hrecord hnone => ?_, ?_⟩
  · rw [← lacks_iff, hfront record hrecord] at hnone
    cases hnone
  · simp only [← hmissing]
    exact hsort

/-- A control of the filter and the column of the same heading agree on what is missing, in every
year of the calendar but its first. All options of the control keep a record exactly if it has no
value to be sorted by, and then it is listed behind all that have one, in either direction; a record
that has a value is hidden by some option. A blank extension is missing for both, and a price that
is no number is present for both. -/
theorem missing_for_filter_and_sort (today : Date) (h : firstYear < today.year) :
    (∀ (field : FilterField) (record : FileRecord),
      ((∀ option ∈ field.options, Criteria.Keeps field today record option.1) ↔
        record.sortKey? field.column = none) ∧
      (record.sortKey? field.column ≠ none → ∃ option ∈ field.options, ∃ criteria,
        Criteria.none.set field option.1 = .ok criteria ∧
          criteria.matchesRecord today record = false)) ∧
    (∀ (field : FilterField) (direction : Direction) (records : List FileRecord),
      ∃ front, (∀ record ∈ front, record.sortKey? field.column ≠ none) ∧
        SortSpec.sort ⟨field.column, direction⟩ records =
          front ++ records.filter fun r => (r.sortKey? field.column).isNone) ∧
    (∀ (record : FileRecord) (extension : String), record.extension = some extension →
      allBlank extension = true →
        (∀ option ∈ FilterField.type.options, Criteria.Keeps .type today record option.1) ∧
          record.sortKey? .extension = none) ∧
    (∀ (record : FileRecord) (price : Binary64), record.price = some price → price.isNaN = true →
      (∀ option ∈ FilterField.price.options, ¬ Criteria.Keeps .price today record option.1) ∧
        record.sortKey? .price = some (.amount price)) := by
  refine ⟨fun field record => ⟨Criteria.keeps_all_iff_sortKey? h field record,
      Criteria.exists_option_hides h⟩,
    fun field direction => SortSpec.sort_eq_append_missing ⟨field.column, direction⟩, ?_, ?_⟩
  · intro record extension hextension hblank
    have hmissing : record.sortKey? .extension = none := by
      rw [← SortSpec.lacks_iff]
      show record.extension.all allBlank = true
      rw [hextension]
      exact hblank
    exact ⟨(Criteria.keeps_all_iff_sortKey? h .type record).2 hmissing, hmissing⟩
  · intro record price hprice hnan
    refine ⟨fun option => Criteria.not_keeps_of_isNaN hprice hnan, ?_⟩
    show record.price.map SortKey.amount = _
    rw [hprice]
    rfl

/-- A record with a blank extension and a price that is no number. -/
def oddRecord : FileRecord :=
  { FileRecord.bare "a1" "odd" with extension := some " \t", price := some ⟨0x7FF8000000000000⟩ }

theorem oddRecord_missing :
    firstYear < DateBucket.lateAugust.year ∧
      (∀ option ∈ FilterField.type.options,
        Criteria.Keeps .type DateBucket.lateAugust oddRecord option.1) ∧
      (∀ option ∈ FilterField.price.options,
        ¬ Criteria.Keeps .price DateBucket.lateAugust oddRecord option.1) ∧
      (oddRecord.sortKey? .price ≠ none → ∃ option ∈ FilterField.price.options, ∃ criteria,
        Criteria.none.set .price option.1 = .ok criteria ∧
          criteria.matchesRecord DateBucket.lateAugust oddRecord = false) ∧
      (∀ option ∈ FilterField.date.options,
        Criteria.Keeps .date DateBucket.lateAugust oddRecord option.1) := by
  have hyear : firstYear < DateBucket.lateAugust.year := by decide
  obtain ⟨agree, -, blank, notNumber⟩ :=
    missing_for_filter_and_sort DateBucket.lateAugust hyear
  exact ⟨hyear, (blank oddRecord " \t" rfl (by decide)).1,
    (notNumber oddRecord ⟨0x7FF8000000000000⟩ rfl (by decide)).1, (agree .price oddRecord).2,
    (agree .date oddRecord).1.2 rfl⟩

/-- In the first year of the calendar, its first day is in every window of dates. -/
example (bucket : DateBucket) : bucket.contains Date.first Date.first = true := by
  cases bucket <;> decide

end FileMarket
