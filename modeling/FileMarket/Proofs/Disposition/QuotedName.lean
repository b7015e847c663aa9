import FileMarket.Proofs.Disposition.Parameters
import FileMarket.Proofs.Text.FormValue

/-!
# Quoted names

A content disposition is cut at every semicolon, those between quotes included. So a quoted name
without semicolons is read back without the blanks around it, whatever else stands in it. A name with
a semicolon never is: a plain name is cut from one of the pieces, and an extended one, which could be
made up by the text of the name itself, would need an escape for every semicolon. Its escapes would
then have to be more than the percent signs of the name.

Main statement: `quoted_name_read_iff`.
-/

set_option autoImplicit false

namespace FileMarket

open Text

/-- The printable ASCII characters that may stand between quotes as they are. -/
def isQuotable (c : Char) : Bool := 0x20 ≤ c.toNat && c.toNat ≤ 0x7E && c != '"' && c != '\\'

theorem isQuotable_imp {c : Char} (h : isQuotable c = true) :
    0x20 ≤ c.toNat ∧ c.toNat ≤ 0x7E ∧ c ≠ '"' := by
  simp only [isQuotable, Bool.and_eq_true, decide_eq_true_eq, bne_iff_ne] at h
  exact ⟨h.1.1.1, h.1.1.2, h.1.2⟩

/-! ## Pieces between semicolons -/

section Pieces

variable {α : Type} [BEq α] [LawfulBEq α] {separator : α} {s piece : List α}

/-- Pieces that follow, each behind a separator, are cut off again. -/
theorem splitOn_append_flatMap {further : List (List α)} (h : ∀ p ∈ further, separator ∉ p) :
    (s ++ further.flatMap (separator :: ·)).splitOn separator = s.splitOn separator ++ further := by
  induction further generalizing s with
  | nil => simp
  | cons p further ih =>
    obtain ⟨hp, hfurther⟩ := List.forall_mem_cons.1 h
    rw [List.flatMap_cons, List.cons_append, List.splitOn_append_cons_self, ih hfurther,
      List.splitOn_eq_singleton hp, List.singleton_append]

/-- A piece is a part of what was cut, without separators. -/
theorem sublist_of_mem_splitOn (h : piece ∈ s.splitOn separator) :
    piece.Sublist s ∧ separator ∉ piece := by
  induction s generalizing piece with
  | nil =>
    obtain rfl := List.mem_singleton.1 h
    exact ⟨List.Sublist.slnil, List.not_mem_nil⟩
  | cons x rest ih =>
    rw [List.splitOn_cons_eq_if_modifyHead] at h
    split at h
    · rcases List.mem_cons.1 h with rfl | hrest
      · exact ⟨List.nil_sublist _, List.not_mem_nil⟩
      · exact ⟨(ih hrest).1.cons x, (ih hrest).2⟩
    · rename_i hx
      cases hsplit : rest.splitOn separator with
      | nil => exact absurd hsplit (List.splitOn_ne_nil _ _)
      | cons first others =>
        -- Only the first piece of the rest grows by the character in front.
        rw [hsplit, List.modifyHead_cons] at h
        rcases List.mem_cons.1 h with rfl | hother
        · obtain ⟨hsub, hfirst⟩ := ih (hsplit ▸ List.mem_cons_self)
          refine ⟨hsub.cons_cons x, ?_⟩
          rw [List.mem_cons, not_or]
          exact ⟨fun heq => hx (beq_iff_eq.2 heq.symm), hfirst⟩
        · obtain ⟨hsub, hpiece⟩ := ih (hsplit ▸ List.mem_cons_of_mem _ hother)
          exact ⟨hsub.cons x, hpiece⟩

end Pieces

/-- A part that lacks some counted member of a list is counted as less. -/
theorem countP_lt_of_sublist {α : Type} {p : α → Bool} {part s : List α} {a : α}
    (h : part.Sublist s) (hmem : a ∈ s) (hcounted : p a = true) (hlacks : a ∉ part) :
    part.countP p < s.countP p := by
  rw [List.countP_eq_length_filter, List.countP_eq_length_filter]
  refine lt_of_le_of_ne (h.filter p).length_le fun hlength => hlacks ?_
  have hsame : part.filter p = s.filter p := (h.filter p).eq_of_length hlength
  exact (List.mem_filter.1 (hsame ▸ List.mem_filter.2 ⟨hmem, hcounted⟩)).1

/-! ## What is read off a piece -/

namespace NameParameter

theorem plainName_sublist (value : List Char) : (plainName value).toList.Sublist value := by
  rw [plainName, String.toList_ofList]
  refine (trimChars_sublist _).trans ?_
  exact (List.rdropWhile_prefix _ _).sublist.trans (List.dropWhile_sublist _)

/-- Between quotes, a plain value gives what stands there without the blanks around it. -/
theorem plainName_quoted {name : List Char} (h : '"' ∉ name) :
    plainName ('"' :: (name ++ ['"'])) = String.ofList (trimChars name) := by
  have hkept : ∀ {c : Char} {rest : List Char}, c ≠ '"' →
      (c :: rest).dropWhile (· == '"') = c :: rest :=
    fun hc => List.dropWhile_cons_of_neg (by simpa using hc)
  have hopening : ('"' :: (name ++ ['"'])).dropWhile (· == '"') =
      (name ++ ['"']).dropWhile (· == '"') := List.dropWhile_cons_of_pos rfl
  have hclosing : (name ++ ['"']).reverse.dropWhile (· == '"') = name.reverse := by
    rw [List.reverse_concat, List.dropWhile_cons_of_pos rfl]
    cases hname : name.reverse with
    | nil => rfl
    | cons c rest =>
      have hmem : c ∈ name := List.mem_reverse.1 (hname ▸ List.mem_cons_self)
      exact hkept fun heq => h (heq ▸ hmem)
  rw [plainName, hopening]
  cases name with
  | nil => rfl
  | cons c rest =>
    rw [List.cons_append, hkept fun heq => h (heq ▸ List.mem_cons_self), ← List.cons_append,
      hclosing, List.reverse_reverse]

theorem afterLanguage_suffix {value rest : List Char} (h : afterLanguage value = some rest) :
    rest <:+ value := by
  induction value using afterLanguage.induct with
  | case1 => cases h
  | case2 => cases h
  | case3 c d back hquotes =>
    rw [afterLanguage, if_pos hquotes] at h
    obtain rfl := Option.some.inj h
    exact (List.suffix_cons d back).trans (List.suffix_cons c _)
  | case4 c d back hquotes ih =>
    rw [afterLanguage, if_neg hquotes] at h
    exact (ih h).trans (List.suffix_cons c _)

/-- An extended name is what the end of the value is read as. -/
theorem extendedName_eq (value : List Char) : ∃ written, written <:+ value ∧
    extendedName value = formValue (String.ofList written) := by
  cases hafter : afterLanguage value with
  | none => exact ⟨value, List.suffix_rfl, by rw [extendedName, hafter, Option.getD_none]⟩
  | some rest =>
    exact ⟨rest, afterLanguage_suffix hafter, by rw [extendedName, hafter, Option.getD_some]⟩

/-- Semicolons, the percent signs of escapes, and all that is beyond ASCII. -/
def isMark (n : Nat) : Bool := n == 0x25 || n == 0x3B || decide (0x80 ≤ n)

/-- The one blank among the quotable characters is no mark. -/
theorem isMark_of_isBlank {c : Char} (h : isQuotable c = true) (hblank : isBlank c = true) :
    isMark c.toNat = false := by
  obtain ⟨hlow, hhigh, -⟩ := isQuotable_imp h
  have hspace : c.toNat = 0x20 := by
    by_contra hother
    have hvisible := isBlank_of_visible (c := c) (by omega) (by omega)
    rw [hblank] at hvisible
    cases hvisible
  rw [hspace]
  rfl

/-- A name has no more marks than the parameter it is read off, since a mark that is not written
takes an escape. -/
theorem countP_name_le {parameter : List Char} {read : NameParameter}
    (h : read? parameter = some read) (ascii : ∀ c ∈ parameter, c.toNat < 0x80) :
    read.name.toList.countP (fun c => isMark c.toNat) ≤
      parameter.countP fun c => isMark c.toNat := by
  obtain ⟨key, value, hsplit, hread⟩ := read?_eq_some h
  have hparameter : value.Sublist parameter := by
    have hvalue : value.Sublist (trimChars parameter) := by
      rw [(splitKey_eq_some_iff.1 hsplit).1]
      exact (List.sublist_cons_self _ _).trans (List.sublist_append_right _ _)
    exact hvalue.trans (trimChars_sublist _)
  have htrimmed : (trimChars value).Sublist parameter := (trimChars_sublist value).trans hparameter
  rcases hread with ⟨-, rfl⟩ | ⟨-, rfl⟩
  · -- Decoding may make marks of what is none, but not more than it takes percent signs.
    obtain ⟨written, hsuffix, hname⟩ := extendedName_eq (trimChars value)
    have hwritten : written.Sublist parameter := hsuffix.sublist.trans htrimmed
    have hbeyond : ∀ n, 0x80 ≤ n → isMark n = true := by
      intro n hn
      simp [isMark, hn]
    rw [name, hname]
    exact (countP_formValue_le hbeyond rfl rfl fun c hc => ascii c (hwritten.mem hc)).trans
      hwritten.countP_le
  · exact ((plainName_sublist _).trans htrimmed).countP_le

/-- The parameter that names a file in quotes. -/
def quoted (name : List Char) : List Char :=
  ' ' :: ("filename".toList ++ '=' :: '"' :: (name ++ ['"']))

theorem quoted_eq (name : List Char) : quoted name = " filename=\"".toList ++ (name ++ ['"']) := by
  simp [quoted]

/-- A parameter with a quoted name gives the name without the blanks around it. -/
theorem read?_quoted {name : List Char} (hquote : '"' ∉ name)
    (nonblank : allBlank (String.ofList name) = false) :
    read? (quoted name) = some (.plain (trim (String.ofList name))) := by
  have hletters : "filename".toList = 'f' :: "ilename".toList := by decide
  have htrim : trimChars (quoted name) = "filename".toList ++ '=' :: '"' :: (name ++ ['"']) := by
    have hends := trimChars_between (by decide : isBlank 'f' = false)
      (by decide : isBlank '"' = false) ("ilename".toList ++ '=' :: '"' :: name)
    rw [quoted, trimChars_cons (by decide), hletters]
    simpa only [List.append_assoc, List.cons_append] using hends
  have hsplit : splitKey (trimChars (quoted name)) =
      some ("filename".toList, '"' :: (name ++ ['"'])) :=
    splitKey_eq_some_iff.2 ⟨htrim, by decide⟩
  have hkey : keyOf (quoted name) = "filename".toList := by
    rw [keyOf_of_split hsplit]
    decide
  have hvalue : trimChars ('"' :: (name ++ ['"'])) = '"' :: (name ++ ['"']) :=
    trimChars_between (by decide) (by decide) name
  have hname : plainName (trimChars ('"' :: (name ++ ['"']))) = trim (String.ofList name) := by
    rw [hvalue, plainName_quoted hquote, trim, String.toList_ofList]
  rw [read?_plain hsplit hkey, hname, if_neg]
  intro hempty
  rw [allBlank_of_trim (String.isEmpty_iff.1 hempty)] at nonblank
  cases nonblank

/-- What is read off a piece of a parameter with a quoted name that has semicolons has fewer marks
than the name. -/
theorem countP_name_lt_of_semicolon {name piece : List Char} {read : NameParameter}
    (ascii : ∀ c ∈ name, c.toNat < 0x80) (hsemicolon : ';' ∈ name)
    (hpiece : piece ∈ (quoted name).splitOn ';') (hread : read? piece = some read) :
    read.name.toList.countP (fun c => isMark c.toNat) < name.countP fun c => isMark c.toNat := by
  rw [quoted_eq] at hpiece
  obtain ⟨hsub, hlacks⟩ := sublist_of_mem_splitOn hpiece
  have hascii : ∀ c ∈ " filename=\"".toList ++ (name ++ ['"']), c.toNat < 0x80 :=
    List.forall_mem_append.2 ⟨by simp, List.forall_mem_append.2 ⟨ascii, by simp⟩⟩
  have hfront : " filename=\"".toList.countP (fun c => isMark c.toNat) = 0 := by decide
  have hback : ['"'].countP (fun c => isMark c.toNat) = 0 := by decide
  calc read.name.toList.countP (fun c => isMark c.toNat)
      ≤ piece.countP (fun c => isMark c.toNat) :=
        countP_name_le hread fun c hc => hascii c (hsub.mem hc)
    _ < (" filename=\"".toList ++ (name ++ ['"'])).countP (fun c => isMark c.toNat) :=
        countP_lt_of_sublist hsub (List.mem_append_right _ (List.mem_append_left _ hsemicolon))
          (by decide) hlacks
    _ = name.countP (fun c => isMark c.toNat) := by
        rw [List.countP_append, List.countP_append, hfront, hback, Nat.zero_add, Nat.add_zero]

end NameParameter

/-! ## Quoted names in content dispositions -/

open NameParameter

/-- What stands behind a quoted name makes no difference, unless some piece of it between semicolons
names a file as well. -/
theorem nameParameters_quoted (name : String) {further : List (List Char)}
    (others : ∀ piece ∈ further,
      ';' ∉ piece ∧ keyOf piece ≠ "filename".toList ∧ keyOf piece ≠ "filename*".toList) :
    nameParameters ("attachment; filename=\"" ++ name ++ "\"" ++
        String.ofList (further.flatMap (';' :: ·))) =
      ((quoted name.toList).splitOn ';').filterMap read? := by
  have hheader : "attachment; filename=\"" ++ name ++ "\"" ++
      String.ofList (further.flatMap (';' :: ·)) =
      String.ofList ("attachment".toList ++ ';' :: (quoted name.toList ++
        further.flatMap (';' :: ·))) := by
    rw [← String.toList_inj]
    simp [quoted]
  have hothers : further.filterMap read? = [] := List.filterMap_eq_nil_iff.2 fun piece hpiece =>
    read?_of_keyOf_ne (others piece hpiece).2.2 (others piece hpiece).2.1
  rw [hheader, nameParameters_attachment,
    splitOn_append_flatMap fun piece hpiece => (others piece hpiece).1, List.filterMap_append,
    hothers, List.append_nil]

/-- A quoted name that is not blank is read back, without the blanks around it, exactly if it has no
semicolon. What follows is given by its pieces between semicolons, of which none names a file. -/
theorem quoted_name_read_iff (name : String) (quotable : ∀ c ∈ name.toList, isQuotable c = true)
    (nonblank : allBlank name = false) (further : List (List Char))
    (others : ∀ piece ∈ further,
      ';' ∉ piece ∧ keyOf piece ≠ "filename".toList ∧ keyOf piece ≠ "filename*".toList) :
    dispositionFileName ("attachment; filename=\"" ++ name ++ "\"" ++
        String.ofList (further.flatMap (';' :: ·))) = some (trim name) ↔ ';' ∉ name.toList := by
  constructor
  · intro hread hsemicolon
    -- Whichever piece the name is read off, it lacks the semicolon, so the name has too few marks.
    obtain ⟨read, hmem, hname⟩ := exists_mem_nameParameters_of_dispositionFileName hread
    rw [nameParameters_quoted name others] at hmem
    obtain ⟨piece, hpiece, hpieceRead⟩ := List.mem_filterMap.1 hmem
    have hfewer := countP_name_lt_of_semicolon
      (fun c hc => (isQuotable_imp (quotable c hc)).2.1.trans_lt (by decide)) hsemicolon hpiece
      hpieceRead
    rw [hname, trim_toList,
      countP_trimChars fun c hc => isMark_of_isBlank (quotable c hc)] at hfewer
    exact absurd hfewer (Nat.lt_irrefl _)
  · intro hsemicolon
    -- The quoted parameter is one piece, and the only one that names a file.
    have hquote : '"' ∉ name.toList := fun hmem => (isQuotable_imp (quotable _ hmem)).2.2 rfl
    have hwhole : ';' ∉ quoted name.toList := by
      rw [quoted_eq, List.mem_append, List.mem_append, not_or, not_or]
      exact ⟨by decide, hsemicolon, by decide⟩
    have hread := read?_quoted hquote (by rwa [String.ofList_toList])
    rw [String.ofList_toList] at hread
    rw [dispositionFileName, nameParameters_quoted name others, List.splitOn_eq_singleton hwhole,
      List.filterMap_cons_some hread]
    rfl

/-- A name that looks like further parameters, and one that follows. -/
theorem parameters_in_quotes_read :
    (∀ c ∈ " a=b, filename*=%3B ".toList, isQuotable c = true) ∧
      allBlank " a=b, filename*=%3B " = false ∧
      (∀ piece ∈ [" size=3".toList], ';' ∉ piece ∧ keyOf piece ≠ "filename".toList ∧
        keyOf piece ≠ "filename*".toList) ∧
      dispositionFileName "attachment; filename=\" a=b, filename*=%3B \"; size=3" =
        some "a=b, filename*=%3B" := by
  have hquotable : ∀ c ∈ " a=b, filename*=%3B ".toList, isQuotable c = true :=
    List.all_eq_true.1 (by decide)
  have hnonblank : allBlank " a=b, filename*=%3B " = false := by decide
  have hothers : ∀ piece ∈ [" size=3".toList], ';' ∉ piece ∧ keyOf piece ≠ "filename".toList ∧
      keyOf piece ≠ "filename*".toList := by decide
  have hread := (quoted_name_read_iff " a=b, filename*=%3B " hquotable hnonblank
    [" size=3".toList] hothers).2 (by decide)
  have htrim : trim " a=b, filename*=%3B " = "a=b, filename*=%3B" := by decide
  rw [htrim] at hread
  exact ⟨hquotable, hnonblank, hothers, hread⟩

/-- A name is cut at a semicolon of its own. -/
theorem semicolon_in_quotes_misread :
    (∀ c ∈ "a;b".toList, isQuotable c = true) ∧ allBlank "a;b" = false ∧ trim "a;b" = "a;b" ∧
      dispositionFileName "attachment; filename=\"a;b\"" = some "a" :=
  ⟨List.all_eq_true.1 (by decide), by decide, by decide, by decide +kernel⟩

end FileMarket
