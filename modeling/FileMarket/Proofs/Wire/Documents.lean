import FileMarket.Proofs.Wire.Records
import FileMarket.Wire.Wallet

/-!
# Reading texts and reading values

A text is read along its structure, before its parts are given values, so that what is not looked at
needs none. Where the whole text has a value, this comes to reading that value: for a record, for a
list of records and for a wallet.
-/

set_option autoImplicit false

namespace FileMarket

/-! ## Values of documents -/

namespace Document

theorem values?_eq_some_iff {depth : Nat} {items : List Document} {values : List Json} :
    values? depth items = some values ↔
      List.Forall₂ (fun item value => item.value? depth = some value) items values := by
  induction items generalizing values with
  | nil => simp [values?, eq_comm]
  | cons item rest ih =>
    rw [values?, List.forall₂_cons_left_iff]
    simp only [bind, Option.bind_eq_some_iff, pure, Option.some.injEq, ← ih]
    grind

theorem fieldValues?_eq_some_iff {depth : Nat} {fields : List (String × Document)}
    {values : List (String × Json)} :
    fieldValues? depth fields = some values ↔
      List.Forall₂ (fun a b => a.1 = b.1 ∧ a.2.value? depth = some b.2) fields values := by
  induction fields generalizing values with
  | nil => simp [fieldValues?, eq_comm]
  | cons field rest ih =>
    obtain ⟨key, item⟩ := field
    rw [fieldValues?, List.forall₂_cons_left_iff]
    simp only [bind, Option.bind_eq_some_iff, pure, Option.some.injEq, ← ih]
    grind

/-- How a document goes together with its value, part for part. -/
inductive Denotes (depth : Nat) : Document → Json → Prop where
  | null : Denotes depth .null .null
  | bool (b : Bool) : Denotes depth (.bool b) (.bool b)
  | number {numeral : Numeral} {n : Number} : numeral.value? = some n →
      Denotes depth (.number numeral) (.number n)
  | text (s : String) : Denotes depth (.text (some s)) (.text s)
  | array {items : List Document} {values : List Json} :
      values? (depth - 1) items = some values → Denotes depth (.array items true) (.array values)
  | object {fields : List (String × Document)} {values : List (String × Json)} :
      fieldValues? (depth - 1) fields = some values →
      Denotes depth (.object fields true) (.object values)

theorem denotes_of_value? {depth : Nat} {document : Document} {value : Json}
    (h : document.value? depth = some value) : Denotes depth document value := by
  cases document with
  | null =>
    cases h
    exact .null
  | bool b =>
    cases h
    exact .bool b
  | number numeral =>
    obtain ⟨n, hn, rfl⟩ := Option.map_eq_some_iff.1 h
    exact .number hn
  | text s =>
    obtain ⟨s, rfl, rfl⟩ := Option.map_eq_some_iff.1 h
    exact .text s
  | array items closed =>
    rw [value?, Option.ite_none_right_eq_some] at h
    obtain ⟨hclosed, hitems⟩ := h
    obtain ⟨values, hvalues, rfl⟩ := Option.map_eq_some_iff.1 hitems
    obtain rfl := (Bool.and_eq_true_iff.1 hclosed).1
    exact .array hvalues
  | object fields closed =>
    rw [value?, Option.ite_none_right_eq_some] at h
    obtain ⟨hclosed, hfields⟩ := h
    obtain ⟨values, hvalues, rfl⟩ := Option.map_eq_some_iff.1 hfields
    obtain rfl := (Bool.and_eq_true_iff.1 hclosed).1
    exact .object hvalues
  | broken => cases h

end Document

namespace Wire

/-! ## Lists read item by item -/

/-- Lists whose items are read alike are read alike. -/
theorem mapM_congr_forall₂ {α β γ : Type} {f : α → Except Fault γ} {g : β → Except Fault γ}
    {xs : List α} {ys : List β} (h : List.Forall₂ (fun x y => f x = g y) xs ys) :
    xs.mapM f = ys.mapM g := by
  induction h with
  | nil => rfl
  | cons hhead _ ih => rw [List.mapM_cons, List.mapM_cons, hhead, ih]

/-- An object is taken pair by pair. -/
theorem foldlM_take_values {D : Type} {take : D → String → Option Json → Except Fault D}
    {depth : Nat} {fields : List (String × Document)} {values : List (String × Json)}
    (h : Document.fieldValues? depth fields = some values) (draft : D) :
    fields.foldlM (fun draft (key, item) => take draft key (item.value? depth)) draft =
      values.foldlM (fun draft (key, value) => take draft key (some value)) draft := by
  have hpairs := Document.fieldValues?_eq_some_iff.1 h
  clear h
  induction hpairs generalizing draft with
  | nil => rfl
  | @cons a b rest rest' hhead _ ih =>
    obtain ⟨key, item⟩ := a
    obtain ⟨key', value⟩ := b
    obtain ⟨rfl, hvalue⟩ := hhead
    simp only [List.foldlM_cons, hvalue, ih]

/-! ## Documents with a value -/

section Documents

variable {depth : Nat} {document : Document} {value : Json}

theorem recordOfDocument_of_value? (h : document.value? depth = some value) :
    recordOfDocument depth document = recordOfJson value := by
  cases Document.denotes_of_value? h with
  | array hvalues => simp only [recordOfDocument, hvalues, recordOfJson]
  | object hvalues =>
    rw [recordOfDocument, foldlM_take_values hvalues]
    rfl
  | null | bool | number | text => rfl

theorem recordsOfDocument_of_value? (h : document.value? depth = some value) :
    recordsOfDocument depth document = recordsOfJson value := by
  cases Document.denotes_of_value? h with
  | @array items values hvalues =>
    have hitems : items.mapM (recordOfDocument (depth - 1)) = values.mapM recordOfJson :=
      mapM_congr_forall₂ ((Document.values?_eq_some_iff.1 hvalues).imp
        fun _ _ => recordOfDocument_of_value?)
    rw [recordsOfDocument, hitems, recordsOfJson]
    cases values.mapM recordOfJson <;> rfl
  | null | bool | number | text | object => rfl

theorem walletOfDocument_of_value? (h : document.value? depth = some value) :
    walletOfDocument depth document = walletOfJson value := by
  cases Document.denotes_of_value? h with
  | @array items values hvalues =>
    have hitems : items.map (·.value? (depth - 1)) = values.map some := by
      rw [← List.forall₂_eq_eq_eq, List.forall₂_map_left_iff, List.forall₂_map_right_iff]
      exact Document.values?_eq_some_iff.1 hvalues
    rw [walletOfDocument, hitems]
    rfl
  | object hvalues =>
    rw [walletOfDocument, foldlM_take_values hvalues]
    rfl
  | null | bool | number | text => rfl

/-- A text with a value is read as its value is. -/
theorem readAs_of_parse? {α : Type} {decode : Nat → Document → Except Fault α}
    {decodeValue : Json → Except Fault α}
    (hdecode : ∀ {depth document value}, Document.value? depth document = some value →
      decode depth document = decodeValue value)
    {s : String} (h : Json.parse? s = some value) : readAs decode s = decodeValue value := by
  unfold Json.parse? at h
  unfold readAs
  split at h
  · rename_i document hread
    rw [hread]
    simp only [hdecode h]
    cases decodeValue value <;> rfl
  · cases h

/-- Whatever is read from a text is what some document stands for. -/
theorem exists_of_readAs {α : Type} {decode : Nat → Document → Except Fault α} {s : String}
    {result : α} (h : readAs decode s = .ok result) :
    ∃ document, decode Document.maxDepth document = .ok result := by
  unfold readAs at h
  dsimp only at h
  cases hdecode : decode Document.maxDepth (Document.read s).1 with
  | error fault =>
    rw [hdecode] at h
    cases h
  | ok decoded =>
    rw [hdecode] at h
    dsimp only at h
    split at h
    · exact ⟨_, hdecode.trans h⟩
    · cases h

end Documents

end Wire

end FileMarket
