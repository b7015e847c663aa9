import FileMarket.Proofs.Decimal.Counts
import FileMarket.Proofs.Decimal.Rounding
import FileMarket.Proofs.Wire.Documents

/-!
# Counts on the wire

The size of a file and the number of its downloads are counts. A number is read as the count that it
equals in the form that it is held in, with one exception: the floating point value `2 ^ 64` is read
as the greatest count (`count?_number_iff`). A text is read as the count that it spells, and nothing
else as a count at all. For a record this holds of each attribute as it is written, wherever the
record stands (`counts_as_written`).
-/

set_option autoImplicit false

namespace FileMarket

open Text Wire

/-! ## Numbers -/

/-- Numbers that are read are held in their form: the integers below zero as such, and a zero with a
minus as a floating point value. -/
theorem Number.isHeld_of_value? {numeral : Numeral} {number : Number}
    (h : numeral.value? = some number) : number.IsHeld := by
  unfold Numeral.value? at h
  generalize takeDigits 0 numeral.whole = taken at h
  obtain ⟨n, surplus⟩ := taken
  dsimp only at h
  split at h
  · by_cases hsign : numeral.negative = true
    · rw [if_neg (by simp [hsign])] at h
      by_cases hrange : 0 < n ∧ n ≤ Int64.maxValue.toInt.toNat + 1
      · rw [if_pos hrange] at h
        obtain rfl := Option.some.inj h
        have hmax : Int64.maxValue.toInt.toNat + 1 = 2 ^ 63 := by decide
        show Int64.ofInt (-n) < 0
        rw [Int64.lt_iff_toInt_lt, Int64.toInt_ofInt_of_le (by omega) (by omega)]
        show -(n : Int) < 0
        omega
      · rw [if_neg hrange] at h
        obtain rfl := Option.some.inj h
        trivial
    · rw [if_pos (by simp [hsign])] at h
      obtain rfl := Option.some.inj h
      trivial
  · obtain ⟨x, -, rfl⟩ := Option.map_eq_some_iff.1 h
    trivial

namespace Wire

/-- An integer below zero is no count. -/
theorem realCount?_signed {k : Int64} (hk : k < 0) :
    realCount? (Number.signed k).toBinary64 = none := by
  have hneg : k.toInt < 0 := Int64.lt_iff_toInt_lt.1 hk
  have hlow : -2 ^ 63 ≤ k.toInt := k.le_toInt
  have hne : UInt64.ofNat k.toInt.natAbs ≠ 0 := by
    intro hzero
    have hnat := congrArg UInt64.toNat hzero
    rw [UInt64.toNat_ofNat_of_lt' (by show _ < 2 ^ 64; omega)] at hnat
    have hzero : k.toInt.natAbs = 0 := hnat
    omega
  have hreal : (Number.signed k).toBinary64 = (Binary64.ofCount (.ofNat k.toInt.natAbs)).negate :=
    if_pos hk
  rw [realCount?, hreal, Binary64.toNat?_negate_ofCount hne]
  rfl

/-- A floating point value is read as the count that it equals, and `2 ^ 64` as the greatest one. -/
theorem realCount?_eq_some_iff {x : Binary64} {n : UInt64} :
    realCount? x = some n ↔ x.toNat? = some n.toNat ∨
      x.toNat? = some (2 ^ 64) ∧ n.toNat = 2 ^ 64 - 1 := by
  have hn := n.toNat_lt
  unfold realCount?
  cases x.toNat? with
  | none => simp
  | some m =>
    have hmin : (UInt64.ofNat (min m (UInt64.size - 1))).toNat = min m (2 ^ 64 - 1) :=
      UInt64.toNat_ofNat_of_lt' ((min_le_right m (UInt64.size - 1)).trans_lt (by decide))
    rw [Option.bind_some, Option.ite_none_right_eq_some, Option.some.injEq, Option.some.injEq,
      Option.some.injEq, ← UInt64.toNat_inj, hmin, show UInt64.size = 2 ^ 64 from rfl]
    omega

/-- A number is read as the count that it equals in the form that it is held in. Only the floating
point value `2 ^ 64`, which is no count, is read as the greatest one. -/
theorem count?_number_iff {number : Number} (held : number.IsHeld) {n : UInt64} :
    count? (.number number) = some n ↔ number.rational? = some (n.toNat : ℚ) ∨
      number.rational? = some (2 ^ 64) ∧ n.toNat = 2 ^ 64 - 1 := by
  cases number with
  | unsigned m =>
    have hm := m.toNat_lt
    have hbelow : (m.toNat : ℚ) ≠ 2 ^ 64 := by exact_mod_cast hm.ne
    simp only [count?, Number.rational?, Option.some.injEq, hbelow, false_and, or_false, Nat.cast_inj,
      UInt64.toNat_inj]
  | signed k =>
    have hneg : ((k.toInt : Int) : ℚ) < 0 := by exact_mod_cast Int64.lt_iff_toInt_lt.1 held
    have hcount : (k.toInt : ℚ) ≠ n.toNat := (hneg.trans_le (Nat.cast_nonneg _)).ne
    have hgreat : (k.toInt : ℚ) ≠ 2 ^ 64 := (hneg.trans (by positivity)).ne
    simp only [count?, realCount?_signed held, Number.rational?, reduceCtorEq, Option.some.injEq,
      hcount, hgreat, false_and, or_false]
  | real x =>
    have hrational : ∀ m : Nat, x.toNat? = some m ↔ (Number.real x).rational? = some (m : ℚ) := by
      intro m
      rw [Binary64.toNat?_eq_some_iff, Number.rational?, Option.ite_none_right_eq_some,
        Option.some.injEq]
    rw [show count? (.number (.real x)) = realCount? x from rfl, realCount?_eq_some_iff, hrational,
      hrational]
    push_cast
    exact Iff.rfl

/-- A text is read as the count that it spells between its blanks. -/
theorem count?_text_iff {s : String} {n : UInt64} :
    count? (.text s) = some n ↔ Spells (trim s) n.toNat := by
  rw [← readCount_eq_ok_iff]
  show (readCount (trim s)).toOption = some n ↔ _
  cases readCount (trim s) with
  | error fault => simp [Except.toOption]
  | ok m => simp [Except.toOption]

/-! ## Attributes as written -/

end Wire

/-- The attributes of a record as they are written. -/
def Document.attributes : Document → List (Field × Document)
  | .object fields _ => fields.filterMap fun (key, item) => (Field.ofKey? key).map (·, item)
  | .array items _ => Field.all.zip items
  | .null | .bool _ | .number _ | .text _ | .broken => []

namespace Wire

/-- An attribute as it is written goes together with one of the same field that has its value. -/
def Given (depth : Nat) (written : Field × Document) (read : Field × Json) : Prop :=
  written.1 = read.1 ∧ written.2.value? depth = some read.2

/-- Takes one attribute as it is written, unless its field has been seen. -/
def RecordDraft.takeItem (depth : Nat) (draft : RecordDraft) (written : Field × Document) :
    Except Fault RecordDraft :=
  if written.1 ∈ draft.seen then .error (.duplicate written.1.key)
  else match written.2.value? depth with
    | none => .error .malformed
    | some value => draft.set written.1 value

/-- Pairs that are taken have values, and it is these that are taken. -/
theorem exists_foldlM_takePair {depth : Nat} {draft draft' : RecordDraft}
    {written : List (Field × Document)}
    (h : written.foldlM (RecordDraft.takeItem depth) draft = .ok draft') :
    ∃ read, List.Forall₂ (Given depth) written read ∧
      read.foldlM RecordDraft.takePair draft = .ok draft' := by
  induction written generalizing draft with
  | nil => exact ⟨[], .nil, h⟩
  | cons pair rest ih =>
    obtain ⟨field, item⟩ := pair
    rw [List.foldlM_cons, bind_eq_ok_iff] at h
    obtain ⟨next, hnext, hrest⟩ := h
    obtain ⟨read, hread, hfold⟩ := ih hrest
    unfold RecordDraft.takeItem at hnext
    split at hnext
    · cases hnext
    · rename_i hnew
      cases hvalue : item.value? depth with
      | none =>
        rw [hvalue] at hnext
        cases hnext
      | some value =>
        rw [hvalue] at hnext
        refine ⟨(field, value) :: read, .cons ⟨rfl, hvalue⟩ hread, ?_⟩
        rw [List.foldlM_cons, bind_eq_ok_iff]
        exact ⟨next, (if_neg hnew).trans hnext, hfold⟩

/-- What goes together with a list, part for part, has something for each of its parts. -/
theorem exists_of_forall₂ {α β : Type} {R : α → β → Prop} {xs : List α} {ys : List β}
    (h : List.Forall₂ R xs ys) {x : α} (hx : x ∈ xs) : ∃ y ∈ ys, R x y := by
  induction h with
  | nil => cases hx
  | @cons a b xs ys hab _ ih =>
    rcases List.mem_cons.1 hx with rfl | hx
    · exact ⟨b, List.mem_cons_self, hab⟩
    · obtain ⟨y, hy, hxy⟩ := ih hx
      exact ⟨y, List.mem_cons_of_mem b hy, hxy⟩

/-- Items that have values have them in the place of their fields. -/
theorem given_zip {depth : Nat} {items : List Document} {values : List Json}
    (h : List.Forall₂ (fun item value => item.value? depth = some value) items values)
    (fields : List Field) :
    List.Forall₂ (Given depth) (fields.zip items) (fields.zip values) := by
  induction h generalizing fields with
  | nil => simp
  | cons hvalue _ ih =>
    cases fields with
    | nil => simp
    | cons field fields => exact .cons ⟨rfl, hvalue⟩ (ih fields)

/-- The fields of the items of an array are different ones. -/
theorem nodup_zip_all (values : List Json) : ((Field.all.zip values).map Prod.fst).Nodup := by
  have hsublist : ∀ fields : List Field, ((fields.zip values).map Prod.fst).Sublist fields := by
    induction values with
    | nil => simp
    | cons value values ih =>
      intro fields
      cases fields with
      | nil => simp
      | cons field fields => exact (ih fields).cons_cons field
  exact (hsublist Field.all).nodup (by decide)

/-- A record that is read has the values of the attributes that are written, at most one for each
field. -/
theorem exists_putAll_of_recordOfDocument {depth : Nat} {document : Document} {record : FileRecord}
    (h : recordOfDocument depth document = .ok record) :
    ∃ read, List.Forall₂ (Given (depth - 1)) document.attributes read ∧
      (read.map Prod.fst).Nodup ∧ (FileRecord.bare "" "").putAll read = record := by
  cases document with
  | object fields closed =>
    obtain ⟨draft, hfold, hfinish⟩ := bind_eq_ok_iff.1 h
    -- The pairs whose keys name no field are passed over.
    have hwritten : (Document.object fields closed).attributes.foldlM
        (RecordDraft.takeItem (depth - 1)) RecordDraft.empty = .ok draft := by
      rw [← hfold, Document.attributes, List.foldlM_filterMap]
      congr 1
      funext draft ⟨key, item⟩
      dsimp only [RecordDraft.take]
      cases Field.ofKey? key with
      | none => rfl
      | some field => rfl
    obtain ⟨read, hread, hread'⟩ := exists_foldlM_takePair hwritten
    obtain ⟨hnodup, -, -, rfl⟩ := RecordDraft.foldlM_takePair_eq_ok_iff.1 hread'
    refine ⟨read, hread, hnodup, ?_⟩
    split at hfinish
    · rw [RecordDraft.finish_eq_ok_iff, RecordDraft.record_foldl_put] at hfinish
      exact hfinish.2
    · cases hfinish
  | array items closed =>
    cases hvalues : Document.values? (depth - 1) items with
    | none => simp [recordOfDocument, hvalues] at h
    | some values =>
      cases closed with
      | false => simp [recordOfDocument, hvalues] at h
      | true =>
        simp only [recordOfDocument, hvalues] at h
        refine ⟨Field.all.zip values, ?_, nodup_zip_all values, (recordOfItems_eq_ok_iff.1 h).2⟩
        exact given_zip (Document.values?_eq_some_iff.1 hvalues) Field.all
  | null | bool | number | text | broken => cases h

/-- A part of a record comes from the value of one attribute and from no other. -/
def Reads {α : Type} (field : Field) (part : FileRecord → α) (read : Json → α) : Prop :=
  ∀ (record : FileRecord) (given : Field) (value : Json),
    part (record.put given value) = if given = field then read value else part record

namespace Reads

variable {α : Type} {field : Field} {part : FileRecord → α} {read : Json → α}
  {record : FileRecord} {values : List (Field × Json)}

/-- A part whose attribute is not given stays as it is. -/
theorem putAll_of_not_mem (h : Reads field part read) (hnone : field ∉ values.map Prod.fst) :
    part (record.putAll values) = part record := by
  induction values generalizing record with
  | nil => rfl
  | cons pair rest ih =>
    obtain ⟨hother, hrest⟩ := not_or.1 (mt List.mem_cons.2 hnone)
    show part ((record.put pair.1 pair.2).putAll rest) = _
    rw [ih hrest, h, if_neg (Ne.symm hother)]

/-- A part whose attribute is given once is as it is given. -/
theorem putAll_of_mem (h : Reads field part read) (hnodup : (values.map Prod.fst).Nodup)
    {value : Json} (hvalue : (field, value) ∈ values) :
    part (record.putAll values) = read value := by
  induction values generalizing record with
  | nil => cases hvalue
  | cons pair rest ih =>
    obtain ⟨hfirst, hrest⟩ := List.nodup_cons.1 hnodup
    show part ((record.put pair.1 pair.2).putAll rest) = _
    rcases List.mem_cons.1 hvalue with rfl | hvalue
    · rw [h.putAll_of_not_mem hfirst, h, if_pos rfl]
    · exact ih hrest hvalue

variable {depth : Nat} {document : Document}

/-- A part of a record that is read comes from the attribute that is written for it. -/
theorem exists_of_written (h : Reads field part read)
    (hrecord : recordOfDocument depth document = .ok record) {item : Document}
    (hitem : (field, item) ∈ document.attributes) :
    ∃ value, item.value? (depth - 1) = some value ∧ part record = read value := by
  obtain ⟨values, hvalues, hnodup, rfl⟩ := exists_putAll_of_recordOfDocument hrecord
  obtain ⟨⟨given, value⟩, hmem, hfield, hvalue⟩ := exists_of_forall₂ hvalues hitem
  obtain rfl : field = given := hfield
  exact ⟨value, hvalue, h.putAll_of_mem hnodup hmem⟩

/-- Where none is written for it, the part is that of an empty record. -/
theorem eq_of_unwritten (h : Reads field part read)
    (hrecord : recordOfDocument depth document = .ok record)
    (hnone : ∀ item, (field, item) ∉ document.attributes) :
    part record = part (FileRecord.bare "" "") := by
  obtain ⟨values, hvalues, -, rfl⟩ := exists_putAll_of_recordOfDocument hrecord
  refine h.putAll_of_not_mem fun hmem => ?_
  obtain ⟨pair, hpair, hfield⟩ := List.mem_map.1 hmem
  obtain ⟨⟨given, item⟩, hitem, hsame, -⟩ := exists_of_forall₂ hvalues.flip hpair
  obtain rfl : given = field := hsame.trans hfield
  exact hnone item hitem

end Reads

end Wire

/-! ## The counts of a record -/

/-- The attributes that are counts. -/
inductive CountField where
  | size
  | downloads

/-- The attribute of a record that a count is. -/
def CountField.field : CountField → Field
  | .size => .size
  | .downloads => .downloads

/-- A count of a record. -/
def FileRecord.countOf (record : FileRecord) : CountField → Option UInt64
  | .size => record.size
  | .downloads => record.downloads

theorem CountField.reads (counted : CountField) :
    Reads counted.field (·.countOf counted) count? := by
  intro record given value
  cases counted <;> cases given <;> first | rfl | (cases value <;> rfl)

/-- What a count is, given how it is written: of a number, what the number equals in the form that
it is held in, where the floating point value `2 ^ 64` passes for the greatest count; of a text, what
is spelled between its blanks; of anything else, nothing. -/
def Document.Counts (item : Document) (count : Option UInt64) : Prop :=
  match item with
  | .number numeral => ∃ number, numeral.value? = some number ∧
    ∀ n, count = some n ↔ number.rational? = some (n.toNat : ℚ) ∨
      number.rational? = some (2 ^ 64) ∧ n.toNat = 2 ^ 64 - 1
  | .text s => ∃ text, s = some text ∧ ∀ n, count = some n ↔ Spells (trim text) n.toNat
  | .null | .bool _ | .array _ _ | .object _ _ | .broken => count = none

/-- A value is read as the count that it is written as. -/
theorem Document.counts_of_value? {depth : Nat} {item : Document} {value : Json}
    (h : item.value? depth = some value) : item.Counts (count? value) := by
  cases Document.denotes_of_value? h with
  | number hnumber =>
    exact ⟨_, hnumber, fun n => count?_number_iff (Number.isHeld_of_value? hnumber)⟩
  | text s => exact ⟨s, rfl, fun n => count?_text_iff⟩
  | null | bool | array | object => rfl

/-- The size and the number of downloads of a record that is read, in a record of its own or in a
list, are the counts that are written for them, and there is none where none is written. -/
theorem counts_as_written {depth : Nat} {document : Document} {record : FileRecord}
    (h : recordOfDocument depth document = .ok record) (counted : CountField) :
    (∀ item, (counted.field, item) ∈ document.attributes →
      item.Counts (record.countOf counted)) ∧
    ((∀ item, (counted.field, item) ∉ document.attributes) →
      record.countOf counted = none) := by
  refine ⟨fun item hitem => ?_, fun hnone => ?_⟩
  · obtain ⟨value, hvalue, hcount⟩ := counted.reads.exists_of_written h hitem
    rw [hcount]
    exact Document.counts_of_value? hvalue
  · rw [counted.reads.eq_of_unwritten h hnone]
    cases counted <;> rfl

/-- The number `2 ^ 64` as it is written. -/
def greatNumeral : Numeral := ⟨false, "18446744073709551616".toList, none, none⟩

/-- A record with this number as its size. -/
def greatRecord : Document :=
  .object [("hash", .text (some "h")), ("size", .number greatNumeral)] true

theorem greatRecord_size :
    recordOfDocument Document.maxDepth greatRecord =
      .ok { FileRecord.bare "h" "" with size := some 18446744073709551615 } ∧
    (Document.number greatNumeral).Counts (some 18446744073709551615) := by
  have hread : recordOfDocument Document.maxDepth greatRecord =
      .ok { FileRecord.bare "h" "" with size := some 18446744073709551615 } := by decide +kernel
  have hwritten : (CountField.size.field, .number greatNumeral) ∈ greatRecord.attributes :=
    List.mem_cons_of_mem _ List.mem_cons_self
  exact ⟨hread, (counts_as_written hread .size).1 _ hwritten⟩

/-- The number `2 ^ 64` is held as it is, and no count equals it; yet it is read as one, though the
text with the same digits is not. -/
theorem great_number_counted :
    ∃ number, greatNumeral.value? = some number ∧ number.rational? = some (2 ^ 64) ∧
      (∀ n : UInt64, number.rational? ≠ some (n.toNat : ℚ)) ∧
      count? (.number number) = some 18446744073709551615 ∧
      count? (.text "18446744073709551616") = none ∧
      readAs recordOfDocument "\x7b\"hash\":\"h\",\"size\":18446744073709551616\x7d" =
        .ok { FileRecord.bare "h" "" with size := some 18446744073709551615 } := by
  have hexact : (Number.real ⟨0x43F0000000000000⟩).rational? = some (2 ^ 64) := by
    have hnat : (⟨0x43F0000000000000⟩ : Binary64).toNat? = some (2 ^ 64) := by decide +kernel
    obtain ⟨hfinite, hvalue⟩ := (Binary64.toNat?_eq_some_iff _ _).1 hnat
    rw [Number.rational?, if_pos hfinite, hvalue]
    push_cast
    rfl
  refine ⟨.real ⟨0x43F0000000000000⟩, by decide +kernel, hexact, fun n => ?_, by decide +kernel,
    by decide +kernel, by decide +kernel⟩
  -- Every count is below it.
  have hbelow : (n.toNat : ℚ) ≠ 2 ^ 64 := by exact_mod_cast n.toNat_lt.ne
  rw [hexact]
  exact fun heq => hbelow (Option.some.inj heq).symm

end FileMarket
