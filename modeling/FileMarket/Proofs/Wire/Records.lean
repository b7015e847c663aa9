import FileMarket.Proofs.Wire.Attributes
import FileMarket.Wire.Record
import Mathlib.Tactic

/-!
# Records read from values

Of an object, the pairs whose keys name a field are taken, each for its field, and the others are
passed over (`foldlM_take`). Reading succeeds exactly if no field occurs twice and the hash occurs
and is a text (`recordOfJson_object_eq_ok_iff`); no other attribute is a reason to fail. A record
that has been read is portable (`isPortable_of_recordOfJson`): its attributes are as reading leaves
them.
-/

set_option autoImplicit false

namespace FileMarket

open Text Wire

/-- A record whose attributes are as reading leaves them: the texts without outer blanks, the price
finite and not negative. -/
structure FileRecord.IsPortable (record : FileRecord) : Prop where
  name : trim record.name = record.name
  extension : ∀ s, record.extension = some s → IsTidy s
  price : ∀ x, record.price = some x → x.isAmount = true

/-- The record with one attribute as a value gives it. A hash that is no text is left out. -/
def FileRecord.put (record : FileRecord) : Field → Json → FileRecord
  | .hash, .text s => { record with hash := s }
  | .hash, _ => record
  | .name, value => { record with name := (text? value).getD "" }
  | .extension, value => { record with extension := text? value }
  | .size, value => { record with size := count? value }
  | .date, value => { record with date := date? value }
  | .price, value => { record with price := amount? value }
  | .downloads, value => { record with downloads := count? value }

/-- The record with attributes put one after the other. -/
def FileRecord.putAll (record : FileRecord) (attributes : List (Field × Json)) : FileRecord :=
  attributes.foldl (fun record (field, value) => record.put field value) record

namespace FileRecord

theorem isPortable_bare_empty : (bare "" "").IsPortable where
  name := rfl
  extension := by
    rintro s ⟨⟩
  price := by
    rintro x ⟨⟩

/-- Whatever the value, an attribute read from it is portable. -/
theorem IsPortable.put {record : FileRecord} (h : record.IsPortable) (field : Field)
    (value : Json) : (record.put field value).IsPortable := by
  cases field with
  | hash => cases value <;> exact ⟨h.name, h.extension, h.price⟩
  | name => exact ⟨trim_getD_text? value, h.extension, h.price⟩
  | extension => exact ⟨h.name, fun s hs => isTidy_of_text? hs, h.price⟩
  | price => exact ⟨h.name, h.extension, fun x hx => isAmount_of_amount? hx⟩
  | size | date | downloads => exact ⟨h.name, h.extension, h.price⟩

theorem IsPortable.putAll {record : FileRecord} (h : record.IsPortable)
    (attributes : List (Field × Json)) : (record.putAll attributes).IsPortable := by
  induction attributes generalizing record with
  | nil => exact h
  | cons pair rest ih => exact ih (h.put pair.1 pair.2)

end FileRecord

namespace Wire

/-- One reading after the other succeeds exactly if both do. -/
theorem bind_eq_ok_iff {ε α β : Type} {first : Except ε α} {next : α → Except ε β} {result : β} :
    first >>= next = .ok result ↔ ∃ found, first = .ok found ∧ next found = .ok result := by
  cases first with
  | error fault => simp [bind, Except.bind]
  | ok found => simp [bind, Except.bind]

/-! ## Keys -/

namespace Field

/-- A key of a field: the one it is written with, or the second one that some fields have. -/
def IsNamedBy (field : Field) (key : String) : Prop := key = field.key ∨ field.alias? = some key

@[simp]
theorem ofKey?_key (field : Field) : ofKey? field.key = some field := by
  cases field <;> rfl

/-- A key names at most one field. -/
theorem ofKey?_eq_some_iff {field : Field} {key : String} :
    ofKey? key = some field ↔ field.IsNamedBy key := by
  constructor
  · intro h
    have hfound := List.find?_some h
    simp only [Bool.or_eq_true, beq_iff_eq] at hfound
    exact hfound.imp Eq.symm id
  -- The search stops at the first field with the key, and there is no other.
  · rintro (rfl | h)
    · exact ofKey?_key field
    · cases field <;> cases h <;> rfl

theorem isNamedBy_hash_iff {key : String} : hash.IsNamedBy key ↔ key = "hash" :=
  or_iff_left (by rintro ⟨⟩)

/-- A value that can be read for a field: any at all, but for the hash only a text. -/
def Accepts (field : Field) (value : Json) : Prop := field = .hash → ∃ s, value = .text s

end Field

/-- The pairs of an object whose keys name a field, with the field in place of the key. -/
def attributes (fields : List (String × Json)) : List (Field × Json) :=
  fields.filterMap fun (key, value) => (Field.ofKey? key).map (·, value)

theorem mem_attributes_iff {fields : List (String × Json)} {field : Field} {value : Json} :
    (field, value) ∈ attributes fields ↔ ∃ key, field.IsNamedBy key ∧ (key, value) ∈ fields := by
  simp only [attributes, List.mem_filterMap, Option.map_eq_some_iff, Prod.exists, Prod.mk.injEq,
    Field.ofKey?_eq_some_iff]
  grind

/-! ## Drafts -/

namespace RecordDraft

/-- Takes one attribute, unless its field has been seen. -/
def takePair (draft : RecordDraft) (pair : Field × Json) : Except Fault RecordDraft :=
  if pair.1 ∈ draft.seen then .error (.duplicate pair.1.key) else draft.set pair.1 pair.2

/-- The draft after an attribute that can be read. -/
def put (draft : RecordDraft) (pair : Field × Json) : RecordDraft :=
  ⟨pair.1 :: draft.seen, draft.record.put pair.1 pair.2⟩

/-- When an attribute can be set, and what it is set to. -/
theorem set_eq_ok_iff {draft draft' : RecordDraft} {pair : Field × Json} :
    draft.set pair.1 pair.2 = .ok draft' ↔ pair.1.Accepts pair.2 ∧ draft.put pair = draft' := by
  obtain ⟨field, value⟩ := pair
  cases field with
  | hash => cases value <;> simp [set, Field.Accepts, put, FileRecord.put]
  | _ => simp [set, Field.Accepts, put, FileRecord.put]

theorem takePair_eq_ok_iff {draft draft' : RecordDraft} {pair : Field × Json} :
    draft.takePair pair = .ok draft' ↔
      pair.1 ∉ draft.seen ∧ pair.1.Accepts pair.2 ∧ draft.put pair = draft' := by
  unfold takePair
  split
  · rename_i hseen
    simp [hseen]
  · rename_i hnew
    simp [hnew, set_eq_ok_iff]

/-- The pairs whose keys name no field are passed over. -/
theorem foldlM_take (draft : RecordDraft) (fields : List (String × Json)) :
    fields.foldlM (fun draft (key, value) => draft.take key (some value)) draft =
      (attributes fields).foldlM takePair draft := by
  rw [attributes, List.foldlM_filterMap]
  congr 1
  funext draft ⟨key, value⟩
  dsimp only [take]
  cases Field.ofKey? key <;> rfl

/-- Attributes are taken exactly if they are of different fields, none of which has been seen
before, and each can be read for its field. -/
theorem foldlM_takePair_eq_ok_iff {draft draft' : RecordDraft} {pairs : List (Field × Json)} :
    pairs.foldlM takePair draft = .ok draft' ↔
      (pairs.map Prod.fst).Nodup ∧ (∀ pair ∈ pairs, pair.1 ∉ draft.seen) ∧
        (∀ pair ∈ pairs, pair.1.Accepts pair.2) ∧ pairs.foldl put draft = draft' := by
  induction pairs generalizing draft with
  | nil => simp [pure, Except.pure]
  | cons pair rest ih =>
    rw [List.foldlM_cons, bind_eq_ok_iff]
    simp only [takePair_eq_ok_iff, and_assoc, exists_and_left, exists_eq_left', ih]
    -- After the first attribute its field is among those seen, so no other may have it.
    simp only [put, List.map_cons, List.nodup_cons, List.mem_map, List.mem_cons, List.foldl_cons]
    grind

/-- Without a look at what has been seen, it only matters that each can be read. -/
theorem foldlM_set_eq_ok_iff {draft draft' : RecordDraft} {pairs : List (Field × Json)} :
    pairs.foldlM (fun draft (field, value) => draft.set field value) draft = .ok draft' ↔
      (∀ pair ∈ pairs, pair.1.Accepts pair.2) ∧ pairs.foldl put draft = draft' := by
  induction pairs generalizing draft with
  | nil => simp [pure, Except.pure]
  | cons pair rest ih =>
    rw [List.foldlM_cons, bind_eq_ok_iff]
    simp only [set_eq_ok_iff, and_assoc, exists_and_left, exists_eq_left', ih,
      List.forall_mem_cons, List.foldl_cons]

@[simp]
theorem record_foldl_put (draft : RecordDraft) (pairs : List (Field × Json)) :
    (pairs.foldl put draft).record = draft.record.putAll pairs := by
  induction pairs generalizing draft with
  | nil => rfl
  | cons pair rest ih => exact ih (draft.put pair)

@[simp]
theorem seen_foldl_put (draft : RecordDraft) (pairs : List (Field × Json)) :
    (pairs.foldl put draft).seen = (pairs.map Prod.fst).reverse ++ draft.seen := by
  induction pairs generalizing draft with
  | nil => rfl
  | cons pair rest ih =>
    rw [List.foldl_cons, ih, List.map_cons, List.reverse_cons, List.append_assoc]
    rfl

theorem finish_eq_ok_iff {draft : RecordDraft} {record : FileRecord} :
    draft.finish = .ok record ↔ .hash ∈ draft.seen ∧ draft.record = record := by
  unfold finish
  split
  · rename_i hseen
    simp [hseen]
  · rename_i hunseen
    simp [hunseen]

end RecordDraft

/-! ## Objects -/

/-- Reading an object is taking its attributes. -/
theorem recordOfJson_object (fields : List (String × Json)) :
    recordOfJson (.object fields) =
      (attributes fields).foldlM RecordDraft.takePair RecordDraft.empty >>= RecordDraft.finish := by
  rw [← RecordDraft.foldlM_take]
  rfl

/-- An object is read exactly if no two of its keys name the same field, one names the hash, and the
hash is a text. Then the record has the attributes that can be read. -/
theorem recordOfJson_object_eq_ok_iff {fields : List (String × Json)} {record : FileRecord} :
    recordOfJson (.object fields) = .ok record ↔
      ((attributes fields).map Prod.fst).Nodup ∧
        (∀ pair ∈ attributes fields, pair.1.Accepts pair.2) ∧
        .hash ∈ (attributes fields).map Prod.fst ∧
        (FileRecord.bare "" "").putAll (attributes fields) = record := by
  rw [recordOfJson_object, bind_eq_ok_iff]
  simp only [RecordDraft.foldlM_takePair_eq_ok_iff, RecordDraft.finish_eq_ok_iff, and_assoc,
    exists_and_left, exists_eq_left', RecordDraft.seen_foldl_put, RecordDraft.record_foldl_put]
  simp [RecordDraft.empty]

/-- Leaving out the pairs whose keys name no field, however often they occur, changes nothing. -/
theorem recordOfJson_filter (fields : List (String × Json)) :
    recordOfJson (.object (fields.filter fun a => (Field.ofKey? a.1).isSome)) =
      recordOfJson (.object fields) := by
  have hattributes : attributes (fields.filter fun a => (Field.ofKey? a.1).isSome) =
      attributes fields := by
    rw [attributes, attributes, List.filterMap_filter]
    congr 1
    funext a
    cases h : Field.ofKey? a.1 <;> simp [h]
  rw [recordOfJson_object, recordOfJson_object, hattributes]

/-- An object tells its fields apart if no two of its keys name the same field. -/
theorem nodup_attributes_iff {fields : List (String × Json)} :
    ((attributes fields).map Prod.fst).Nodup ↔
      fields.Pairwise fun a b => ∀ field : Field, field.IsNamedBy a.1 → ¬ field.IsNamedBy b.1 := by
  have hnames : (attributes fields).map Prod.fst = fields.filterMap fun a => Field.ofKey? a.1 := by
    rw [attributes, List.map_filterMap]
    congr 1
    funext a
    cases h : Field.ofKey? a.1 <;> simp [h]
  rw [hnames, List.Nodup, List.pairwise_filterMap]
  simp only [Field.ofKey?_eq_some_iff]
  constructor
  · exact List.Pairwise.imp fun h field ha hb => h field ha field hb rfl
  · refine List.Pairwise.imp fun h field ha field' hb => ?_
    rintro rfl
    exact h field ha hb

/-- Where no field occurs twice, the hash can be read exactly if it is there as a text. -/
theorem accepts_hash_iff {fields : List (String × Json)}
    (hnodup : ((attributes fields).map Prod.fst).Nodup) :
    ((∀ pair ∈ attributes fields, pair.1.Accepts pair.2) ∧
        .hash ∈ (attributes fields).map Prod.fst) ↔
      ∃ s, ("hash", .text s) ∈ fields := by
  constructor
  · rintro ⟨haccepts, hhash⟩
    obtain ⟨⟨field, value⟩, hmem, rfl⟩ := List.mem_map.1 hhash
    obtain ⟨s, rfl⟩ := haccepts _ hmem rfl
    obtain ⟨key, hkey, hmem⟩ := mem_attributes_iff.1 hmem
    obtain rfl := Field.isNamedBy_hash_iff.1 hkey
    exact ⟨s, hmem⟩
  · rintro ⟨s, hmem⟩
    have hhash : (.hash, .text s) ∈ attributes fields :=
      mem_attributes_iff.2 ⟨"hash", Field.isNamedBy_hash_iff.2 rfl, hmem⟩
    refine ⟨fun pair hpair hfield => ?_, List.mem_map_of_mem hhash⟩
    obtain rfl := List.inj_on_of_nodup_map hnodup hpair hhash hfield
    exact ⟨s, rfl⟩

/-! ## Arrays -/

/-- Of the attributes of an array only the first is a hash. -/
theorem accepts_zip_iff {value : Json} {rest : List Json} :
    (∀ pair ∈ Field.all.zip (value :: rest), pair.1.Accepts pair.2) ↔ ∃ s, value = .text s := by
  constructor
  · intro h
    exact h (.hash, value) List.mem_cons_self rfl
  · rintro ⟨s, rfl⟩ pair hpair hfield
    rcases List.mem_cons.1 hpair with rfl | hpair
    · exact ⟨s, rfl⟩
    · have htail := (List.of_mem_zip hpair).1
      rw [hfield] at htail
      exact absurd htail (by decide)

/-- An array is read exactly if it has one to seven items, the first of which is a text. -/
theorem recordOfItems_eq_ok_iff {items : List Json} {record : FileRecord} :
    recordOfItems items = .ok record ↔
      (∃ s rest, items = .text s :: rest ∧ rest.length ≤ 6) ∧
        (FileRecord.bare "" "").putAll (Field.all.zip items) = record := by
  cases items with
  | nil => simp [recordOfItems]
  | cons value rest =>
    have hfirst : (∃ s rest', value :: rest = .text s :: rest' ∧ rest'.length ≤ 6) ↔
        (∃ s, value = .text s) ∧ rest.length ≤ 6 := by
      simp
    rw [hfirst]
    have hfit : ((value :: rest).isEmpty || Field.all.length < (value :: rest).length) = true ↔
        ¬ rest.length ≤ 6 := by
      simp [Field.all, Nat.succ_le_iff]
    unfold recordOfItems
    split
    · rename_i hlong
      simp [hfit.1 hlong]
    · rename_i hshort
      have hfits : rest.length ≤ 6 := not_not.1 (mt hfit.2 hshort)
      rw [bind_eq_ok_iff]
      simp only [RecordDraft.foldlM_set_eq_ok_iff, and_assoc, exists_and_left, exists_eq_left',
        accepts_zip_iff, RecordDraft.record_foldl_put, pure, Except.pure, Except.ok.injEq, hfits,
        and_true]
      rfl

/-! ## Values -/

/-- A value that is a record: an object with a text for its hash in which no two keys name the same
field, or an array of one to seven items of which the first is a text. -/
def IsRecord : Json → Prop
  | .object fields =>
    (∃ s, ("hash", .text s) ∈ fields) ∧
      fields.Pairwise fun a b => ∀ field : Field, field.IsNamedBy a.1 → ¬ field.IsNamedBy b.1
  | .array items => ∃ s rest, items = .text s :: rest ∧ rest.length ≤ 6
  | _ => False

/-- The values that are records are those that are read as one. -/
theorem isRecord_iff {value : Json} :
    IsRecord value ↔ ∃ record, recordOfJson value = .ok record := by
  cases value with
  | object fields =>
    simp only [recordOfJson_object_eq_ok_iff, exists_and_left, exists_eq', and_true]
    constructor
    · rintro ⟨hhash, hfields⟩
      have hnodup := nodup_attributes_iff.2 hfields
      exact ⟨hnodup, (accepts_hash_iff hnodup).2 hhash⟩
    · rintro ⟨hnodup, hhash⟩
      exact ⟨(accepts_hash_iff hnodup).1 hhash, nodup_attributes_iff.1 hnodup⟩
  | array items => simp [recordOfJson, recordOfItems_eq_ok_iff, IsRecord]
  | null | bool | number | text => simp [recordOfJson, IsRecord]

/-- What is read from a value is portable. -/
theorem isPortable_of_recordOfJson {value : Json} {record : FileRecord}
    (h : recordOfJson value = .ok record) : record.IsPortable := by
  cases value with
  | object fields =>
    obtain ⟨-, -, -, rfl⟩ := recordOfJson_object_eq_ok_iff.1 h
    exact FileRecord.isPortable_bare_empty.putAll _
  | array items =>
    obtain ⟨-, rfl⟩ := recordOfItems_eq_ok_iff.1 h
    exact FileRecord.isPortable_bare_empty.putAll _
  | null | bool | number | text => cases h

end Wire

end FileMarket
