import FileMarket.Proofs.Wire.Documents

/-!
# Listings

A listing is read exactly if it is null or an array of records, and gives one record for each item,
in order (`listing_read_iff`). What an attribute other than the hash holds never keeps its record out
of the listing.
-/

set_option autoImplicit false

namespace FileMarket.Wire

/-- A list is read exactly if all its items are, and gives what they give, in order. -/
theorem mapM_eq_ok_iff {α γ : Type} {f : α → Except Fault γ} {xs : List α} {results : List γ} :
    xs.mapM f = .ok results ↔ List.Forall₂ (fun x result => f x = .ok result) xs results := by
  induction xs generalizing results with
  | nil => simp [pure, Except.pure, eq_comm]
  | cons x rest ih =>
    rw [List.mapM_cons, List.forall₂_cons_left_iff]
    simp only [bind_eq_ok_iff, pure, Except.pure, Except.ok.injEq, ih]
    grind

/-- A listing of nothing is empty, and one of items holds the records of all of them in order. -/
theorem recordsOfJson_eq_ok_iff {value : Json} {records : List FileRecord} :
    recordsOfJson value = .ok records ↔ (value = .null ∧ records = []) ∨
      ∃ items, value = .array items ∧
        List.Forall₂ (fun item record => recordOfJson item = .ok record) items records := by
  cases value with
  | null => simp [recordsOfJson, eq_comm]
  | array items => simp [recordsOfJson, mapM_eq_ok_iff]
  | bool | number | text | object => simp [recordsOfJson]

/-- All items of a list can be read exactly if each can. -/
theorem exists_forall₂_iff {α γ : Type} {R : α → γ → Prop} {xs : List α} :
    (∃ ys, List.Forall₂ R xs ys) ↔ ∀ x ∈ xs, ∃ y, R x y := by
  induction xs with
  | nil => simp
  | cons x rest ih =>
    simp only [List.forall₂_cons_left_iff, List.forall_mem_cons, ← ih]
    grind

theorem exists_recordsOfJson_iff {value : Json} :
    (∃ records, recordsOfJson value = .ok records) ↔
      value = .null ∨ ∃ items, value = .array items ∧ ∀ item ∈ items, IsRecord item := by
  simp only [recordsOfJson_eq_ok_iff, isRecord_iff, ← exists_forall₂_iff]
  grind

/-- The price of a record that has been read is finite and not below zero. -/
theorem price_of_recordOfJson {value : Json} {record : FileRecord} {x : Binary64}
    (h : recordOfJson value = .ok record) (hprice : record.price = some x) :
    x.isFinite = true ∧ Binary64.zero.le x = true :=
  Bool.and_eq_true_iff.1 ((isPortable_of_recordOfJson h).price x hprice)

/-- A value is read as a record exactly if it is an object with a text for its hash and no field
named by two of its keys, or an array of one to seven items with a text in front; keys that name no
field are ignored. A value is read as a listing exactly if it is null or an array of records, and
then the listing has the record of each item, in order. Prices that are read are finite and not below
zero. A text that has a value is read as that value is. -/
theorem listing_read_iff :
    (∀ value, (∃ record, recordOfJson value = .ok record) ↔ IsRecord value) ∧
      (∀ fields, recordOfJson (.object (fields.filter fun a => (Field.ofKey? a.1).isSome)) =
        recordOfJson (.object fields)) ∧
      (∀ value, (∃ records, recordsOfJson value = .ok records) ↔
        value = .null ∨ ∃ items, value = .array items ∧ ∀ item ∈ items, IsRecord item) ∧
      (∀ value records, recordsOfJson value = .ok records ↔ (value = .null ∧ records = []) ∨
        ∃ items, value = .array items ∧
          List.Forall₂ (fun item record => recordOfJson item = .ok record) items records) ∧
      (∀ value record x, recordOfJson value = .ok record → record.price = some x →
        x.isFinite = true ∧ Binary64.zero.le x = true) ∧
      (∀ s value, Json.parse? s = some value →
        readAs recordOfDocument s = recordOfJson value ∧
          readAs recordsOfDocument s = recordsOfJson value) :=
  ⟨fun _ => isRecord_iff.symm, recordOfJson_filter, fun _ => exists_recordsOfJson_iff,
    fun _ _ => recordsOfJson_eq_ok_iff, fun _ _ _ => price_of_recordOfJson,
    fun _ _ h => ⟨readAs_of_parse? recordOfDocument_of_value? h,
      readAs_of_parse? recordsOfDocument_of_value? h⟩⟩

example : recordsOfJson (.array [.object [("hash", .text "f00d"), ("file_size", .object []),
    ("price", .bool true), ("path", .null), ("path", .null)]]) = .ok [.bare "f00d" ""] := by rfl

end FileMarket.Wire
