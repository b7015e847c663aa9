import FileMarket.Filter.Criteria
import FileMarket.Proofs.Grid.Consistency
import FileMarket.Proofs.Text.Blank

/-!
# Tags of filter controls

A control takes a tag in any case and shows it as it is written in the list of its options. So a
control shows the very text it was set by exactly if the text is blank or one of these tags letter
by letter (`Criteria.set_literal_iff`).
-/

set_option autoImplicit false

namespace FileMarket

open Text

/-! ## One control -/

/-- The options of a control: all are in the list, none has an empty tag or one with blanks around it,
and they can be told apart by their tags whatever the case. -/
class LawfulBucket (β : Type) [Bucket β] : Prop where
  mem_all : ∀ b : β, b ∈ (Bucket.all : List β)
  tag_ne : ∀ b : β, Bucket.tag b ≠ ""
  trim_tag : ∀ b : β, trim (Bucket.tag b) = Bucket.tag b
  eq_of_sameAscii : ∀ b c : β, sameAscii (Bucket.tag b) (Bucket.tag c) = true → b = c

instance : LawfulBucket FileKind where
  mem_all b := by cases b <;> decide
  tag_ne b := by cases b <;> decide
  trim_tag b := by cases b <;> decide
  eq_of_sameAscii b c := by cases b <;> cases c <;> decide

instance : LawfulBucket SizeBucket where
  mem_all b := by cases b <;> decide
  tag_ne b := by cases b <;> decide
  trim_tag b := by cases b <;> decide
  eq_of_sameAscii b c := by cases b <;> cases c <;> decide

instance : LawfulBucket DateBucket where
  mem_all b := by cases b <;> decide
  tag_ne b := by cases b <;> decide
  trim_tag b := by cases b <;> decide
  eq_of_sameAscii b c := by cases b <;> cases c <;> decide

instance : LawfulBucket PriceBucket where
  mem_all b := by cases b <;> decide
  tag_ne b := by cases b <;> decide
  trim_tag b := by cases b <;> decide
  eq_of_sameAscii b c := by cases b <;> cases c <;> decide

instance : LawfulBucket DownloadsBucket where
  mem_all b := by cases b <;> decide
  tag_ne b := by cases b <;> decide
  trim_tag b := by cases b <;> decide
  eq_of_sameAscii b c := by cases b <;> cases c <;> decide

section Setting

variable {β : Type} [Bucket β] [LawfulBucket β]

/-- The tag that a control shows, empty when it is not set. -/
def Bucket.shown {β : Type} [Bucket β] (setting : Option β) : String :=
  (setting.map Bucket.tag).getD ""

theorem Bucket.shown_injective {setting setting' : Option β}
    (h : Bucket.shown setting = Bucket.shown setting') : setting = setting' := by
  cases setting with
  | none =>
    cases setting' with
    | none => rfl
    | some c => exact absurd h.symm (LawfulBucket.tag_ne c)
  | some b =>
    cases setting' with
    | none => exact absurd h (LawfulBucket.tag_ne b)
    | some c =>
      have htags : Bucket.tag b = Bucket.tag c := h
      exact congrArg some (LawfulBucket.eq_of_sameAscii b c (by simp [sameAscii, htags]))

/-- A control shows nothing or the tag of one of its options. -/
theorem Bucket.shown_eq_or_mem (setting : Option β) :
    Bucket.shown setting = "" ∨
      Bucket.shown setting ∈ (Bucket.all : List β).map Bucket.tag := by
  cases setting with
  | none => exact .inl rfl
  | some b => exact .inr (List.mem_map.2 ⟨b, LawfulBucket.mem_all b, rfl⟩)

omit [LawfulBucket β] in
theorem Criteria.setting_of_blank {tag : String} (h : trim tag = "") :
    Criteria.setting β tag = .ok Option.none := by
  unfold setting
  rw [h]
  rfl

/-- The tag of an option sets the control to it. -/
theorem Criteria.setting_of_tag {tag : String} {b : β} (htag : Bucket.tag b = trim tag) :
    Criteria.setting β tag = .ok (some b) := by
  have hne : trim tag ≠ "" := htag ▸ LawfulBucket.tag_ne b
  have hsame : sameAscii (Bucket.tag b) (trim tag) = true := by simp [sameAscii, htag]
  unfold setting
  rw [if_neg (by simpa using hne), Bucket.parse, trim_trim]
  cases hfind : (Bucket.all : List β).find? fun c => sameAscii (Bucket.tag c) (trim tag) with
  | none => exact absurd hsame (List.find?_eq_none.1 hfind b (LawfulBucket.mem_all b))
  | some c =>
    have hc : sameAscii (Bucket.tag c) (Bucket.tag b) = true := by
      rw [htag]
      exact List.find?_some (p := fun c => sameAscii (Bucket.tag c) (trim tag)) hfind
    rw [LawfulBucket.eq_of_sameAscii c b hc]
    rfl

/-- A control shows the very text that it was set by exactly if this is blank or one of its tags. -/
theorem Criteria.setting_literal_iff (tag : String) :
    (∃ setting : Option β, Criteria.setting β tag = .ok setting ∧
        Bucket.shown setting = trim tag) ↔
      trim tag = "" ∨ trim tag ∈ (Bucket.all : List β).map Bucket.tag := by
  constructor
  · rintro ⟨setting, -, hshown⟩
    exact hshown ▸ Bucket.shown_eq_or_mem setting
  · rintro (hblank | hmem)
    · exact ⟨.none, setting_of_blank hblank, hblank.symm⟩
    · obtain ⟨b, -, htag⟩ := List.mem_map.1 hmem
      exact ⟨some b, setting_of_tag htag, htag⟩

end Setting

/-! ## All controls -/

namespace Criteria

/-- What holds of one setting holds of the controls that it is put into. -/
theorem map_literal_iff {β : Type} [Bucket β] [LawfulBucket β] {tag : String}
    {put : Option β → Criteria} {text : Criteria → String}
    (htext : ∀ setting, text (put setting) = Bucket.shown setting) :
    (∃ criteria, (setting β tag).map put = .ok criteria ∧ text criteria = trim tag) ↔
      trim tag = "" ∨ trim tag ∈ (Bucket.all : List β).map Bucket.tag := by
  rw [← setting_literal_iff]
  constructor
  · rintro ⟨criteria, hset, hshown⟩
    obtain ⟨s, hs, rfl⟩ := Outcome.exists_of_map_eq_ok hset
    exact ⟨s, hs, by rwa [htext] at hshown⟩
  · rintro ⟨s, hs, hshown⟩
    exact ⟨put s, by rw [hs]; rfl, by rwa [htext]⟩

/-- The tags of a control's options, without their labels. -/
theorem map_fst_pairs {β : Type} [Bucket β] : ((Bucket.all : List β).map fun b =>
    (Bucket.tag b, Bucket.label b)).map Prod.fst = (Bucket.all : List β).map Bucket.tag := by
  rw [List.map_map]
  rfl

/-- A control shows the very text that it was set by, exactly if this is blank or the tag of one of
its options. -/
theorem set_literal_iff (criteria : Criteria) (field : FilterField) (tag : String) :
    (∃ criteria', criteria.set field tag = .ok criteria' ∧ criteria'.tag field = trim tag) ↔
      trim tag = "" ∨ trim tag ∈ field.options.map Prod.fst := by
  cases field <;> simp only [set, FilterField.options, map_fst_pairs] <;>
    exact map_literal_iff fun _ => rfl

/-- A control shows nothing or the tag of one of its options. -/
theorem tag_eq_or_mem (criteria : Criteria) (field : FilterField) :
    criteria.tag field = "" ∨ criteria.tag field ∈ field.options.map Prod.fst := by
  cases field <;> simp only [FilterField.options, map_fst_pairs] <;>
    exact Bucket.shown_eq_or_mem _

/-- What the controls show tells how they are set. -/
theorem eq_of_tag_eq {criteria criteria' : Criteria}
    (h : ∀ field, criteria.tag field = criteria'.tag field) : criteria = criteria' := by
  have hkind : criteria.kind = criteria'.kind := Bucket.shown_injective (h .type)
  have hsize : criteria.size = criteria'.size := Bucket.shown_injective (h .size)
  have hdate : criteria.date = criteria'.date := Bucket.shown_injective (h .date)
  have hprice : criteria.price = criteria'.price := Bucket.shown_injective (h .price)
  have hdownloads : criteria.downloads = criteria'.downloads :=
    Bucket.shown_injective (h .downloads)
  cases criteria
  cases criteria'
  simp_all

theorem tag_retain (criteria : Criteria) (field : FilterField) :
    (criteria.retain [field]).tag field = criteria.tag field := by
  cases field <;> rfl

theorem tag_of_set {criteria criteria' : Criteria} {field other : FilterField} {tag : String}
    (h : criteria.set field tag = .ok criteria') (hother : other ≠ field) :
    criteria'.tag other = criteria.tag other := by
  rw [← tag_retain, retain_of_set h (mt List.mem_singleton.1 hother.symm), tag_retain]

/-- Whether a tag is refused does not depend on how the controls are set. -/
theorem set_eq_error_iff (criteria criteria' : Criteria) (field : FilterField) (tag : String)
    (error : MarketError) :
    criteria.set field tag = .error error ↔ criteria'.set field tag = .error error := by
  unfold set
  cases field with
  | type => cases setting FileKind tag <;> simp [Except.map]
  | size => cases setting SizeBucket tag <;> simp [Except.map]
  | date => cases setting DateBucket tag <;> simp [Except.map]
  | price => cases setting PriceBucket tag <;> simp [Except.map]
  | downloads => cases setting DownloadsBucket tag <;> simp [Except.map]

end Criteria

end FileMarket
