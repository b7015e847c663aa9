import FileMarket.Proofs.Wire.Documents
import FileMarket.Proofs.Wire.Wallets

/-!
# Writing and reading back

A record is written as its attributes in a fixed order, those that are absent left out, and reading
sets them one after the other; so a record is read back as it was exactly if it is portable, and so
is a wallet (`read_back`). What has been read is portable, so a second way over the wire changes
nothing.
-/

set_option autoImplicit false

namespace FileMarket

open Text Wire

/-! ## Records -/

namespace FileRecord

/-- The value that an attribute is written as, if it is not absent. -/
def attribute? (record : FileRecord) : Field → Option Json
  | .hash => some (.text record.hash)
  | .name => some (.text record.name)
  | .extension => record.extension.map .text
  | .size => record.size.map fun n => .number (.unsigned n)
  | .date => record.date.map fun d => .text d.print
  | .price => record.price.map fun x => .number (.real x)
  | .downloads => record.downloads.map fun n => .number (.unsigned n)

/-- The attributes that are written. -/
def written (record : FileRecord) : List (Field × Json) :=
  Field.all.filterMap fun field => (record.attribute? field).map (field, ·)

theorem mem_written_iff {record : FileRecord} {field : Field} {value : Json} :
    (field, value) ∈ record.written ↔ record.attribute? field = some value := by
  simp only [written, List.mem_filterMap, Option.map_eq_some_iff, Prod.mk.injEq]
  constructor
  · rintro ⟨field', -, value', h, rfl, rfl⟩
    exact h
  · intro h
    exact ⟨field, by cases field <;> decide, value, h, rfl, rfl⟩

theorem nodup_written (record : FileRecord) : (record.written.map Prod.fst).Nodup := by
  have hfields : record.written.map Prod.fst =
      Field.all.filter fun field => (record.attribute? field).isSome := by
    rw [written, List.map_filterMap, ← List.filterMap_eq_filter]
    congr 1
    funext field
    cases h : record.attribute? field <;> simp [h, Option.guard]
  rw [hfields]
  exact (by decide : Field.all.Nodup).filter _

/-- Writing a record is writing its attributes under the keys of their fields. -/
theorem recordToJson_eq (record : FileRecord) :
    recordToJson record =
      .object (record.written.map fun (field, value) => (field.key, value)) := by
  have hpairs : record.written.map (fun (field, value) => (field.key, value)) =
      Field.all.flatMap fun field =>
        ((record.attribute? field).map fun value => (field.key, value)).toList := by
    rw [written, List.map_filterMap, List.filterMap_eq_flatMap_toList]
    simp only [Option.map_map]
    rfl
  rw [hpairs]
  simp [Field.all, attribute?, recordToJson, Option.map_map, Function.comp_def]

/-- The attributes of an object that has been written. -/
theorem attributes_written (record : FileRecord) :
    attributes (record.written.map fun (field, value) => (field.key, value)) = record.written := by
  rw [attributes, List.filterMap_map]
  exact (List.filterMap_congr fun pair _ => by simp).trans List.filterMap_some

/-- The record after an attribute of another is put as it is written, or passed over. -/
def putWritten (target record : FileRecord) (field : Field) : FileRecord :=
  match record.attribute? field with
  | some value => target.put field value
  | none => target

theorem putAll_written (target record : FileRecord) :
    target.putAll record.written =
      Field.all.foldl (fun target => target.putWritten record) target := by
  rw [putAll, written, List.foldl_filterMap]
  congr 1
  funext target field
  unfold putWritten
  cases record.attribute? field <;> rfl

/-- The record with one attribute as another has it, if it has it. -/
def withField (target record : FileRecord) : Field → FileRecord
  | .hash => { target with hash := record.hash }
  | .name => { target with name := record.name }
  | .extension => { target with extension := record.extension.or target.extension }
  | .size => { target with size := record.size.or target.size }
  | .date => { target with date := record.date.or target.date }
  | .price => { target with price := record.price.or target.price }
  | .downloads => { target with downloads := record.downloads.or target.downloads }

/-- Every attribute of a portable record is read back from what is written for it. -/
theorem IsPortable.putWritten_eq {record : FileRecord} (h : record.IsPortable)
    (target : FileRecord) (field : Field) :
    target.putWritten record field = target.withField record field := by
  obtain ⟨hash, name, extension, size, date, price, downloads⟩ := record
  cases field with
  | hash => rfl
  | name =>
    simp only [putWritten, attribute?, FileRecord.put, withField, getD_text?_text h.name]
  | extension =>
    cases extension with
    | none => rfl
    | some s =>
      simp only [putWritten, attribute?, Option.map_some, FileRecord.put, withField,
        text?_text_of_isTidy (h.extension s rfl), Option.some_or]
  | price =>
    cases price with
    | none => rfl
    | some x =>
      simp only [putWritten, attribute?, Option.map_some, FileRecord.put, withField,
        amount?_real (h.price x rfl), Option.some_or]
  | date =>
    cases date with
    | none => rfl
    | some d =>
      simp only [putWritten, attribute?, Option.map_some, FileRecord.put, withField, date?_print,
        Option.some_or]
  | size => cases size <;> rfl
  | downloads => cases downloads <;> rfl

theorem IsPortable.putAll_written_eq {record : FileRecord} (h : record.IsPortable) :
    (bare "" "").putAll record.written = record := by
  simp only [putAll_written, h.putWritten_eq, Field.all, List.foldl_cons, List.foldl_nil, withField,
    bare, Option.or_none]

end FileRecord

namespace Wire

/-- A portable record is read back as it was. -/
theorem recordOfJson_recordToJson {record : FileRecord} (h : record.IsPortable) :
    recordOfJson (recordToJson record) = .ok record := by
  rw [record.recordToJson_eq, recordOfJson_object_eq_ok_iff, record.attributes_written]
  refine ⟨record.nodup_written, ?_, ?_, h.putAll_written_eq⟩
  · rintro ⟨field, value⟩ hwritten (rfl : field = .hash)
    obtain rfl := Option.some.inj (FileRecord.mem_written_iff.1 hwritten)
    exact ⟨record.hash, rfl⟩
  · exact List.mem_map_of_mem (f := Prod.fst) (FileRecord.mem_written_iff.2 rfl)

/-- A record, and a wallet, is read back from what is written for it exactly if it is portable, and
what is read from any value is portable; so reading, writing and reading again is reading once. The
same holds of a text that has the written value. -/
theorem read_back :
    (∀ record, recordOfJson (recordToJson record) = .ok record ↔ record.IsPortable) ∧
      (∀ value record, recordOfJson value = .ok record →
        record.IsPortable ∧ recordOfJson (recordToJson record) = recordOfJson value) ∧
      (∀ wallet, walletOfJson (walletToJson wallet) = .ok wallet ↔ wallet.IsPortable) ∧
      (∀ value wallet, walletOfJson value = .ok wallet →
        wallet.IsPortable ∧ walletOfJson (walletToJson wallet) = walletOfJson value) ∧
      (∀ s record, Json.parse? s = some (recordToJson record) →
        readAs recordOfDocument s = recordOfJson (recordToJson record)) ∧
      (∀ s wallet, Json.parse? s = some (walletToJson wallet) →
        readAs walletOfDocument s = walletOfJson (walletToJson wallet)) := by
  refine ⟨fun record => ⟨isPortable_of_recordOfJson, recordOfJson_recordToJson⟩, ?_,
    fun wallet => ⟨isPortable_of_walletOfJson, walletOfJson_walletToJson⟩, ?_,
    fun _ _ => readAs_of_parse? recordOfDocument_of_value?,
    fun _ _ => readAs_of_parse? walletOfDocument_of_value?⟩
  · intro value record h
    have hportable := isPortable_of_recordOfJson h
    exact ⟨hportable, by rw [h, recordOfJson_recordToJson hportable]⟩
  · intro value wallet h
    have hportable := isPortable_of_walletOfJson h
    exact ⟨hportable, by rw [h, walletOfJson_walletToJson hportable]⟩

end Wire

end FileMarket
