import FileMarket.Proofs.Storage.FileName

/-!
# When a safe name is in its final form

A name is made safe in one pass: the component is chosen, its characters are filtered, the blanks
around it are cut off, then the dots at its start. What stands behind those dots is not looked at
again, so a blank there becomes the first character.

Main statement: a safe name begins with no dot and ends with no blank; it begins with a blank exactly
if the dots cut off were followed by one, and exactly then making it safe once more changes it
(`safeName_normal_iff`).
-/

set_option autoImplicit false

namespace FileMarket

open Text

/-- What is left of a name before the dots at its start are cut off. -/
def bareName (name : List Char) : List Char :=
  trimChars (((((pathComponents name).filter isNamed).getLast?).getD []).filter isNameChar)

theorem safeNameChars_eq (name : List Char) : safeNameChars name =
    if ((bareName name).dropWhile (· == '.')).isEmpty then "file".toList
    else (bareName name).dropWhile (· == '.') := rfl

/-! ## Characters of names -/

/-- Letters and numerals are not blank: no blank stands in the table. -/
theorem isAlphanumeric_of_isBlank {c : Char} (h : isBlank c = true) : isAlphanumeric c = false := by
  have htable : ∀ n ∈ [0x85, 0xA0, 0x1680, 0x2000, 0x2001, 0x2002, 0x2003, 0x2004, 0x2005, 0x2006,
      0x2007, 0x2008, 0x2009, 0x200A, 0x2028, 0x2029, 0x202F, 0x205F, 0x3000],
      inRanges (letterRangesAt n) n = false := by decide +kernel
  unfold isAlphanumeric
  by_cases hascii : c.toNat < 0x80
  · rw [if_pos hascii, ← Bool.not_eq_true]
    intro halpha
    have hranges := toNat_of_isAlphanum halpha
    simp only [isBlank, Bool.or_eq_true, Bool.and_eq_true, decide_eq_true_eq, beq_iff_eq] at h
    omega
  · rw [if_neg hascii]
    apply htable
    simp only [isBlank, Bool.or_eq_true, Bool.and_eq_true, decide_eq_true_eq, beq_iff_eq] at h
    simp only [List.mem_cons, List.not_mem_nil, or_false]
    omega

/-- The one blank that a name may have is the space. -/
theorem eq_space_of_isNameChar {c : Char} (h : isNameChar c = true) (hblank : isBlank c = true) :
    c = ' ' := by
  have hothers : ∀ other ∈ ['.', '-', '_', '(', ')'], isBlank other = false := by
    simp [isBlank]
  by_contra hne
  have hmem : c ∈ ['.', '-', '_', '(', ')'] := by
    simpa [isNameChar, isAlphanumeric_of_isBlank hblank, hne, or_assoc] using h
  rw [hothers c hmem] at hblank
  cases hblank

/-! ## The ends of a safe name -/

/-- A safe name is the word for one without a name, or what the dots at its start were cut off. -/
theorem safeNameChars_cases (name : List Char) :
    safeNameChars name = "file".toList ∨
      safeNameChars name ≠ [] ∧ safeNameChars name = (bareName name).dropWhile (· == '.') := by
  rw [safeNameChars_eq]
  split
  · exact Or.inl rfl
  · rename_i hempty
    exact Or.inr ⟨fun heq => hempty (List.isEmpty_iff.2 heq), rfl⟩

/-- A safe name ends with no blank. -/
theorem isBlank_of_getLast?_safeName {name : List Char} {c : Char}
    (h : (safeNameChars name).getLast? = some c) : isBlank c = false := by
  rcases safeNameChars_cases name with hfile | ⟨hne, hcut⟩
  · rw [hfile] at h
    obtain rfl := Option.some.inj h
    decide
  · obtain ⟨dots, hdots⟩ : (bareName name).dropWhile (· == '.') <:+ bareName name :=
      List.dropWhile_suffix _
    rw [hcut] at hne h
    rw [← List.getLast?_append_of_ne_nil dots hne, hdots] at h
    exact isBlank_of_getLast?_trimChars h

/-- A safe name begins with a space where the dots cut off were followed by one. -/
theorem head?_safeName_iff (name : List Char) : (safeNameChars name).head? = some ' ' ↔
    ∃ dots rest, bareName name = List.replicate (dots + 1) '.' ++ ' ' :: rest := by
  constructor
  · intro h
    rcases safeNameChars_cases name with hfile | ⟨-, hcut⟩
    · rw [hfile] at h
      exact absurd h (by decide)
    · obtain ⟨rest, hrest⟩ := List.head?_eq_some_iff.1 (hcut ▸ h)
      have hparts := List.takeWhile_append_dropWhile (p := (· == '.')) (l := bareName name)
      rw [hrest] at hparts
      have hdots : ∀ c ∈ (bareName name).takeWhile (· == '.'), c = '.' := fun c hc => by
        simpa using List.mem_takeWhile_imp hc
      rw [List.eq_replicate_of_mem hdots] at hparts
      cases hlength : ((bareName name).takeWhile (· == '.')).length with
      | zero =>
        -- No dot was cut off, but the trimmed name begins with no space.
        rw [hlength] at hparts
        have hhead : (bareName name).head? = some ' ' := by rw [← hparts]; rfl
        exact absurd (isBlank_of_head?_trimChars hhead) (by decide)
      | succ dots =>
        rw [hlength] at hparts
        exact ⟨dots, rest, hparts.symm⟩
  · rintro ⟨dots, rest, hname⟩
    have hcut : (bareName name).dropWhile (· == '.') = ' ' :: rest := by
      rw [hname, List.dropWhile_append_of_pos fun c hc => by simp [List.eq_of_mem_replicate hc]]
      exact List.dropWhile_cons_of_neg (by decide)
    rw [safeNameChars_eq, hcut]
    rfl

/-! ## Making a name safe once more -/

/-- A harmless name is one component that names something. -/
theorem bareName_of_harmless {name : String} (h : Harmless name) :
    bareName name.toList = trimChars name.toList := by
  have hslash : '/' ∉ name.toList := fun hmem => (isNameChar_imp (h.chars _ hmem)).1 rfl
  have hback : name.toList.map (fun c => if c = '\\' then '/' else c) = name.toList := by
    calc name.toList.map (fun c => if c = '\\' then '/' else c)
        = name.toList.map id :=
          List.map_congr_left fun c hc => if_neg (isNameChar_imp (h.chars c hc)).2.1
      _ = name.toList := List.map_id _
  have hnamed : isNamed name.toList = true := by
    have hempty : name.toList ≠ [] := fun heq => h.ne_empty (String.toList_eq_nil_iff.1 heq)
    have hdot : name.toList ≠ ['.'] := fun heq => h.head_ne_dot (by rw [heq]; rfl)
    have hdotdot : name.toList ≠ ['.', '.'] := fun heq => h.head_ne_dot (by rw [heq]; rfl)
    simp [isNamed, hempty, hdot, hdotdot]
  rw [bareName, pathComponents, hback, List.splitOn_eq_singleton hslash,
    List.filter_cons_of_pos hnamed, List.filter_nil, List.getLast?_singleton, Option.getD_some,
    List.filter_eq_self.2 h.chars]

/-- A harmless name that ends with no blank is safe as it is, unless it begins with a space. -/
theorem safeName_of_harmless_iff {name : String} (h : Harmless name)
    (hend : ∀ c, name.toList.getLast? = some c → isBlank c = false) :
    safeName name = name ↔ name.toList.head? ≠ some ' ' := by
  have hne : name.toList ≠ [] := fun heq => h.ne_empty (String.toList_eq_nil_iff.1 heq)
  rw [← String.toList_inj, safeName, String.toList_ofList]
  constructor
  · intro hsame hspace
    rcases safeNameChars_cases name.toList with hfile | ⟨-, hcut⟩
    · rw [← hsame, hfile] at hspace
      exact absurd hspace (by decide)
    · -- Nothing was cut off, so the name was trimmed before.
      have htrimmed : trimChars name.toList = name.toList := by
        refine (trimChars_sublist _).eq_of_length_le ?_
        rw [hsame, bareName_of_harmless h] at hcut
        exact (congrArg List.length hcut).le.trans (List.dropWhile_sublist _).length_le
      rw [← htrimmed] at hspace
      exact absurd (isBlank_of_head?_trimChars hspace) (by decide)
  · intro hspace
    have hstart : ∀ c, name.toList.head? = some c → isBlank c = false := by
      intro c hc
      rw [← Bool.not_eq_true]
      intro hblank
      exact hspace (eq_space_of_isNameChar (h.chars c (List.mem_of_head? hc)) hblank ▸ hc)
    have hkept : (bareName name.toList).dropWhile (· == '.') = name.toList := by
      rw [bareName_of_harmless h, trimChars_of_ends hstart hend]
      exact List.dropWhile_beq_eq_self_of_head?_ne h.head_ne_dot
    rw [safeNameChars_eq, hkept, if_neg (by simpa using hne)]

/-- A safe name begins with no dot and ends with no blank. It begins with a space exactly if the dots
cut off at its start were followed by one, and exactly then making it safe once more changes it. -/
theorem safeName_normal_iff (name : String) :
    (safeName name).toList.head? ≠ some '.' ∧
      (∀ c, (safeName name).toList.getLast? = some c → isBlank c = false) ∧
      ((safeName name).toList.head? = some ' ' ↔
        ∃ dots rest, bareName name.toList = List.replicate (dots + 1) '.' ++ ' ' :: rest) ∧
      (safeName (safeName name) = safeName name ↔ (safeName name).toList.head? ≠ some ' ') := by
  have hharmless := harmless_safeName name
  have hchars : (safeName name).toList = safeNameChars name.toList := String.toList_ofList
  have hend : ∀ c, (safeName name).toList.getLast? = some c → isBlank c = false := by
    intro c hc
    rw [hchars] at hc
    exact isBlank_of_getLast?_safeName hc
  refine ⟨hharmless.head_ne_dot, hend, ?_, safeName_of_harmless_iff hharmless hend⟩
  rw [hchars]
  exact head?_safeName_iff name.toList

/-- A space behind the dot at the start is left, and is cut off when the name is made safe again. -/
theorem spaced_name_not_normal :
    safeName ". a" = " a" ∧ (safeName ". a").toList.head? = some ' ' ∧
      safeName (safeName ". a") = "a" ∧ safeName (safeName ". a") ≠ safeName ". a" := by
  decide

end FileMarket
