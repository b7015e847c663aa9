import FileMarket.Filter.Criteria
import FileMarket.Proofs.Text.Casing

/-!
# Spellings of extensions and media types

The extension of a file may be stored in many spellings: ` .PDF` for `pdf`, or `Video/MP4; q=1` for
`video/mp4`. The case of letters, blanks around the value, dots in front of an extension and
parameters behind a media type make no difference to the kind, each by itself (`of?_of_respelled`)
and so in any combination (`of?_of_synonymous`).

Main statement: `one_kind_for_spellings`, by which all spellings are in one bucket of the control
for kinds. It does not depend on the tables of extensions and types, since what is looked up in
them is the same for all spellings.
-/

set_option autoImplicit false

namespace FileMarket.FileKind

open Text

variable {value other : String}

/-! ## What is looked up -/

/-- A stored value without the blanks around it and in small letters. -/
def plain (value : String) : List Char := (trimChars value.toList).map Char.toLower

/-- It makes no difference which of the two is done first. -/
theorem plain_eq (value : String) : plain value = trimChars (value.toList.map Char.toLower) :=
  (trimChars_map_toLower _).symm

theorem isEmpty_plain (value : String) : (plain value).isEmpty = allBlank value := by
  rw [Bool.eq_iff_iff, List.isEmpty_iff, plain, List.map_eq_nil_iff, ← trim_toList,
    String.toList_eq_nil_iff]
  exact ⟨allBlank_of_trim, trim_of_allBlank⟩

/-- Characters that are neither letters nor blanks, as the slash and the semicolon, stay. -/
theorem mem_plain_iff {c : Char} (sign : c.isAlpha = false) (visible : isBlank c = false) :
    c ∈ plain value ↔ c ∈ value.toList :=
  (mem_map_toLower_iff sign).trans (mem_trimChars_iff visible)

/-- Only a blank value has no kind. -/
theorem of?_eq_none_iff (value : String) : of? value = none ↔ allBlank value = true := by
  rw [← isEmpty_plain, of?, ← plain]
  split
  · rename_i h
    exact iff_of_true rfl h
  · rename_i h
    refine iff_of_false ?_ h
    split <;> exact Option.some_ne_none _

theorem of?_of_plain_eq (h : plain other = plain value) : of? other = of? value := by
  rw [of?, ← plain, h]
  rfl

/-- A value without a slash is looked up as an extension, the dots in front of it cut off. -/
theorem of?_extension (present : allBlank value = false) (h : '/' ∉ value.toList) :
    of? value = some (ofExtension ((plain value).dropWhile (· == '.'))) := by
  have hslash : (plain value).contains '/' = false := by
    rw [List.contains_eq_mem, decide_eq_false_iff_not, mem_plain_iff (by decide) (by decide)]
    exact h
  rw [of?, ← plain, isEmpty_plain, present, hslash, if_neg Bool.false_ne_true,
    if_neg Bool.false_ne_true]

/-- A value with a slash is looked up as a media type. -/
theorem of?_mediaType (h : '/' ∈ value.toList) : of? value = some (ofMime (plain value)) := by
  have hslash : '/' ∈ plain value := (mem_plain_iff (by decide) (by decide)).2 h
  rw [of?, ← plain, List.isEmpty_eq_false_iff.2 (List.ne_nil_of_mem hslash),
    List.contains_iff_mem.2 hslash, if_neg Bool.false_ne_true, if_pos rfl]

/-- Of a media type only what stands in front of its parameters counts. -/
theorem ofMime_of_cut_eq {mime mime' : List Char}
    (h : trimChars (mime.takeWhile (· != ';')) = trimChars (mime'.takeWhile (· != ';'))) :
    ofMime mime = ofMime mime' := by
  simp only [ofMime, h]

/-! ## One respelling -/

theorem plain_of_sameAscii (h : sameAscii value other = true) : plain other = plain value := by
  rw [plain_eq, plain_eq, sameAscii_iff.1 h]

theorem plain_between {before after : String} (hbefore : allBlank before = true)
    (hafter : allBlank after = true) : plain (before ++ value ++ after) = plain value := by
  rw [plain, String.toList_append, String.toList_append,
    trimChars_append (List.all_eq_true.1 hbefore) (List.all_eq_true.1 hafter), plain]

/-- Dots in front of a trimmed value stay, with all of the value behind them. -/
theorem plain_dotted (trimmed : trim value = value) (n : Nat) :
    plain (String.ofList (List.replicate n '.') ++ value) =
      List.replicate n '.' ++ plain value := by
  have hvalue : trimChars value.toList = value.toList := by rw [← trim_toList, trimmed]
  have hdots : ∀ c ∈ List.replicate n '.', isBlank c = false := by
    intro c hc
    rw [List.eq_of_mem_replicate hc]
    decide
  rw [plain, String.toList_append, String.toList_ofList, trimChars_append_of_trimmed hdots hvalue,
    List.map_append, List.map_replicate, plain, hvalue]
  rfl

theorem of?_dotted (n : Nat) (trimmed : trim value = value) (present : allBlank value = false)
    (h : '/' ∉ value.toList) : of? (String.ofList (List.replicate n '.') ++ value) = of? value := by
  have hpresent : allBlank (String.ofList (List.replicate n '.') ++ value) = false := by
    rw [← isEmpty_plain, List.isEmpty_eq_false_iff] at present ⊢
    rw [plain_dotted trimmed]
    exact List.append_ne_nil_of_right_ne_nil _ present
  have hslash : '/' ∉ (String.ofList (List.replicate n '.') ++ value).toList := by
    rw [String.toList_append, String.toList_ofList, List.mem_append, not_or]
    exact ⟨fun hdot => absurd (List.eq_of_mem_replicate hdot) (by decide), h⟩
  -- What is looked up differs by the dots alone, and all dots in front are cut off.
  rw [of?_extension hpresent hslash, of?_extension present h, plain_dotted trimmed,
    List.dropWhile_append_of_pos fun c hc => beq_iff_eq.2 (List.eq_of_mem_replicate hc)]

/-- The type ends at the first semicolon. -/
theorem takeWhile_append_parameters (mime parameters : List Char) :
    (mime ++ ';' :: parameters).takeWhile (· != ';') = mime.takeWhile (· != ';') := by
  rw [List.takeWhile_append]
  split
  · rename_i hwhole
    rw [List.takeWhile_cons_of_neg (by decide), List.append_nil]
    exact ((List.takeWhile_prefix _).eq_of_length hwhole).symm
  · rfl

/-- Blanks between a type and its parameters go with the parameters. -/
theorem cut_plain_append_parameters (value parameters : String) :
    trimChars ((plain (value ++ ";" ++ parameters)).takeWhile (· != ';')) =
      trimChars ((plain value).takeWhile (· != ';')) := by
  have hmark : ";".toList.map Char.toLower = [';'] := by decide
  rw [plain_eq, plain_eq, String.toList_append, String.toList_append, List.map_append,
    List.map_append, hmark, List.append_assoc, List.singleton_append,
    trimChars_append_cons (by decide), takeWhile_append_parameters]
  -- Both sides are fronts of one text; on the right the blanks at its end went before the cut.
  exact (trimChars_takeWhile_trimEndChars _ _).symm

theorem of?_parametrized (parameters : String) (h : '/' ∈ value.toList) :
    of? (value ++ ";" ++ parameters) = of? value := by
  have hslash : '/' ∈ (value ++ ";" ++ parameters).toList := by
    rw [String.toList_append, String.toList_append]
    exact List.mem_append_left _ (List.mem_append_left _ h)
  rw [of?_mediaType hslash, of?_mediaType h,
    ofMime_of_cut_eq (cut_plain_append_parameters value parameters)]

/-! ## Spellings -/

/-- Another spelling of a stored value: ASCII letters in the other case, blanks around it, dots in
front of an extension, or parameters behind a media type. -/
inductive Respelled (value : String) : String → Prop where
  | cased {other : String} (same : sameAscii value other = true) : Respelled value other
  | spaced (before after : String) (hbefore : allBlank before = true)
      (hafter : allBlank after = true) : Respelled value (before ++ value ++ after)
  | dotted (n : Nat) (trimmed : trim value = value) (present : allBlank value = false)
      (extension : '/' ∉ value.toList) :
      Respelled value (String.ofList (List.replicate n '.') ++ value)
  | parametrized (parameters : String) (mediaType : '/' ∈ value.toList) :
      Respelled value (value ++ ";" ++ parameters)

/-- Spellings of one extension or media type: a chain of respellings leads from one to the other,
each taken in either direction. -/
def Synonymous : String → String → Prop := Relation.EqvGen Respelled

theorem of?_of_respelled (h : Respelled value other) : of? other = of? value := by
  cases h with
  | cased same => exact of?_of_plain_eq (plain_of_sameAscii same)
  | spaced before after hbefore hafter => exact of?_of_plain_eq (plain_between hbefore hafter)
  | dotted n trimmed present extension => exact of?_dotted n trimmed present extension
  | parametrized parameters mediaType => exact of?_parametrized parameters mediaType

theorem of?_of_synonymous (h : Synonymous value other) : of? other = of? value := by
  induction h with
  | rel value other hrespelled => exact of?_of_respelled hrespelled
  | refl value => rfl
  | symm value other _ ih => exact ih.symm
  | trans value middle other _ _ ih ih' => exact ih'.trans ih

/-- No criteria tell two spellings apart. -/
theorem matchesRecord_of_synonymous (h : Synonymous value other) (criteria : Criteria)
    (today : Date) (record : FileRecord) :
    criteria.matchesRecord today { record with extension := some other } =
      criteria.matchesRecord today { record with extension := some value } := by
  have hkind : ({ record with extension := some other } : FileRecord).kind? =
      ({ record with extension := some value } : FileRecord).kind? := of?_of_synonymous h
  simp only [Criteria.matchesRecord, hkind]

/-- The control for kinds alone keeps a record exactly if it is set to the kind of its extension. -/
theorem matchesRecord_kind {kind : FileKind} (h : of? value = some kind) (bucket : FileKind)
    (today : Date) (record : FileRecord) :
    ({ Criteria.none with kind := some bucket }).matchesRecord today
      { record with extension := some value } = (bucket == kind) := by
  have hkind : ({ record with extension := some value } : FileRecord).kind? = some kind := h
  simp [Criteria.matchesRecord, Criteria.none, Criteria.passes, hkind]

/-- Exactly the blank values have no kind, and no respelling changes the kind of a value: the case
of its letters, blanks around it, dots in front of a trimmed extension, and parameters behind a
media type. So all spellings of one extension or media type are in one bucket of the control for
kinds and in none of its others, and whatever else is set, a filter keeps all of them or none. -/
theorem one_kind_for_spellings :
    (∀ value : String, of? value = none ↔ allBlank value = true) ∧
    (∀ value other : String, Respelled value other → of? other = of? value) ∧
    (∀ value : String, allBlank value = false → ∃ kind, of? value = some kind ∧
      ∀ other, Synonymous value other → of? other = some kind ∧
        ∀ (bucket : FileKind) (today : Date) (record : FileRecord),
          ({ Criteria.none with kind := some bucket }).matchesRecord today
            { record with extension := some other } = (bucket == kind)) ∧
    (∀ value other : String, Synonymous value other →
      ∀ (criteria : Criteria) (today : Date) (record : FileRecord),
        criteria.matchesRecord today { record with extension := some other } =
          criteria.matchesRecord today { record with extension := some value }) := by
  refine ⟨of?_eq_none_iff, fun _ _ => of?_of_respelled, fun value present => ?_,
    fun _ _ => matchesRecord_of_synonymous⟩
  -- The value has a kind since it is not blank, and every chain of respellings carries it along.
  obtain ⟨kind, hkind⟩ : ∃ kind, of? value = some kind := by
    rw [← Option.ne_none_iff_exists', Ne, of?_eq_none_iff, present]
    exact Bool.false_ne_true
  refine ⟨kind, hkind, fun other hother => ?_⟩
  have hsame : of? other = some kind := (of?_of_synonymous hother).trans hkind
  exact ⟨hsame, matchesRecord_kind hsame⟩

theorem kinds_of_spelled_names :
    (Synonymous "pdf" " ..PdF\t" ∧ of? " ..PdF\t" = some .document ∧
      ∀ (bucket : FileKind) (today : Date) (record : FileRecord),
        ({ Criteria.none with kind := some bucket }).matchesRecord today
          { record with extension := some " ..PdF\t" } = (bucket == .document)) ∧
    (Respelled "Video/MP4 " "Video/MP4 ;q=\"a;b/c\"" ∧
      of? "Video/MP4 ;q=\"a;b/c\"" = some .media) ∧
    (allBlank "\u00A0\t" = true ∧ of? "\u00A0\t" = none) := by
  obtain ⟨blank, respelled, spelled, -⟩ := one_kind_for_spellings
  have hcased : Respelled "pdf" "PdF" := .cased (by decide)
  have hdotted : Respelled "PdF" "..PdF" := .dotted 2 (by decide) (by decide) (by decide)
  have hspaced : Respelled "..PdF" " ..PdF\t" := .spaced " " "\t" (by decide) (by decide)
  have hpdf : Synonymous "pdf" " ..PdF\t" :=
    .trans _ _ _ (.rel _ _ hcased) (.trans _ _ _ (.rel _ _ hdotted) (.rel _ _ hspaced))
  have hmp4 : Respelled "Video/MP4 " "Video/MP4 ;q=\"a;b/c\"" :=
    .parametrized "q=\"a;b/c\"" (by decide)
  obtain ⟨kind, hkind, hall⟩ := spelled "pdf" (by decide)
  obtain rfl : kind = .document := Option.some.inj (hkind.symm.trans (by decide))
  exact ⟨⟨hpdf, hall _ hpdf⟩, ⟨hmp4, (respelled _ _ hmp4).trans (by decide +kernel)⟩, by decide,
    (blank _).2 (by decide)⟩

/-- Blanks behind the dots are part of the extension. -/
example : of? ". pdf" = some .other := by decide +kernel

end FileMarket.FileKind
