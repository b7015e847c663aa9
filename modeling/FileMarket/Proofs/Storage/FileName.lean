import FileMarket.Proofs.Text.Ascii
import FileMarket.Proofs.Text.Blank
import FileMarket.Storage.Save
import Mathlib.Tactic

/-!
# Harmless names

Every name that a payload is saved under is one component of a path, without a dot at its start and
of characters allowed in names only (`harmless_safeName`, `Harmless.candidate`). None of these
characters divides a path or is a control character (`isNameChar_imp`). The names of part files are
made of the same characters and begin with a dot, which tells them from all names that are saved
under (`Harmless.ne_partName`).
-/

set_option autoImplicit false

namespace FileMarket

open Text

/-! ## Characters of names -/

/-- Control characters: those of ASCII, and the block that follows it. -/
def isControl (c : Char) : Bool := c.toNat < 0x20 || (0x7F ≤ c.toNat && c.toNat < 0xA0)

/-- Letters and numerals are no control characters: the table of those beyond ASCII begins after
both blocks. -/
theorem isControl_of_isAlphanumeric {c : Char} (h : isAlphanumeric c = true) :
    isControl c = false := by
  unfold isAlphanumeric at h
  by_cases hascii : c.toNat < 0x80
  · rw [if_pos hascii] at h
    have hranges := toNat_of_isAlphanum h
    simp only [isControl, Bool.or_eq_false_iff, Bool.and_eq_false_iff, decide_eq_false_iff_not]
    omega
  · rw [if_neg hascii] at h
    have hfirst : ∀ range ∈ letterRangesLow, 0xAA ≤ range.1 := by decide
    have hlarge : 0xA0 ≤ c.toNat := by
      by_contra hsmall
      unfold letterRangesAt inRanges at h
      rw [if_pos (by omega)] at h
      obtain ⟨range, hmem, hrange⟩ := List.any_eq_true.1 h
      have hbound := hfirst range hmem
      simp only [Bool.and_eq_true, decide_eq_true_eq] at hrange
      omega
    simp only [isControl, Bool.or_eq_false_iff, Bool.and_eq_false_iff, decide_eq_false_iff_not]
    omega

/-- A character allowed in names neither divides a path nor is a control character. -/
theorem isNameChar_imp {c : Char} (h : isNameChar c = true) :
    c ≠ '/' ∧ c ≠ '\\' ∧ isControl c = false := by
  refine ⟨?_, ?_, ?_⟩
  · rintro rfl
    exact absurd h (by decide)
  · rintro rfl
    exact absurd h (by decide)
  · simp only [isNameChar, Bool.or_eq_true, beq_iff_eq] at h
    rcases h with (((((halpha | rfl) | rfl) | rfl) | rfl) | rfl) | rfl
    · exact isControl_of_isAlphanumeric halpha
    all_goals decide

/-- The digits of a number are allowed in names. -/
theorem isNameChar_of_mem_toString {n : Nat} {c : Char} (h : c ∈ (toString n).toList) :
    isNameChar c = true := by
  rw [Nat.toString_eq_repr, Nat.toList_repr] at h
  have hdigit := Nat.isDigit_of_mem_toDigits (by decide) (by decide) h
  have halpha : c.isAlphanum = true := by rw [Char.isAlphanum, hdigit, Bool.or_true]
  have hranges := toNat_of_isAlphanum halpha
  have halphanumeric : isAlphanumeric c = true := by
    unfold isAlphanumeric
    rwa [if_pos (by omega)]
  simp only [isNameChar, halphanumeric, Bool.true_or]

/-! ## Harmless names -/

/-- A name that is one component of a path and names nothing but itself: it is not empty, it does
not begin with a dot, and it has only characters allowed in names. -/
structure Harmless (name : String) : Prop where
  ne_empty : name ≠ ""
  head_ne_dot : name.toList.head? ≠ some '.'
  chars : ∀ c ∈ name.toList, isNameChar c = true

/-- Every name that was made safe is harmless. -/
theorem harmless_safeName (name : String) : Harmless (safeName name) := by
  have hshape : ∀ s : List Char, (∀ c ∈ s, isNameChar c = true) →
      Harmless (String.ofList (if (s.dropWhile (· == '.')).isEmpty then "file".toList
        else s.dropWhile (· == '.'))) := by
    intro s hs
    by_cases hempty : (s.dropWhile (· == '.')).isEmpty = true
    · rw [if_pos hempty]
      exact ⟨by decide, by decide, List.all_eq_true.1 (by decide)⟩
    · rw [if_neg hempty]
      have hhead := List.head?_dropWhile_not (· == '.') s
      refine ⟨?_, ?_, ?_⟩
      · intro heq
        rw [← String.toList_inj, String.toList_ofList] at heq
        exact hempty (by rw [heq]; rfl)
      · rw [String.toList_ofList]
        intro hdot
        rw [hdot] at hhead
        exact absurd hhead (by decide)
      · intro c hc
        rw [String.toList_ofList] at hc
        exact hs c ((List.dropWhile_sublist _).subset hc)
  unfold safeName safeNameChars
  apply hshape
  intro c hc
  exact (List.mem_filter.1 ((trimChars_sublist _).subset hc)).2

namespace Harmless

variable {name : String}

theorem ne_dot (h : Harmless name) : name ≠ "." := by
  rintro rfl
  exact h.head_ne_dot rfl

theorem ne_dotdot (h : Harmless name) : name ≠ ".." := by
  rintro rfl
  exact h.head_ne_dot rfl

/-- No part file has a harmless name, for the names of part files begin with a dot. -/
theorem ne_partName (h : Harmless name) (other : String) : name ≠ partName other := by
  rintro rfl
  apply h.head_ne_dot
  rw [partName, String.toList_append, String.toList_append]
  rfl

end Harmless

/-- The name of a part file is made of characters allowed in names as well. -/
theorem Harmless.chars_partName {name : String} (h : Harmless name) :
    ∀ c ∈ (partName name).toList, isNameChar c = true := by
  intro c hc
  rw [partName, String.toList_append, String.toList_append, List.mem_append, List.mem_append] at hc
  rcases hc with (hc | hc) | hc
  · exact List.all_eq_true.1 (by decide : ".".toList.all isNameChar = true) c hc
  · exact h.chars c hc
  · exact List.all_eq_true.1 (by decide : ".part".toList.all isNameChar = true) c hc

/-- Different names have different part files. -/
theorem partName_inj {name name' : String} : partName name = partName name' ↔ name = name' := by
  rw [partName, partName, String.append_left_inj, String.append_right_inj]

/-! ## Numbered names -/

/-- The first part of a name is not empty and stands at its start. -/
theorem splitExtension_fst {name : List Char} (hne : name ≠ []) :
    (splitExtension name).1 ≠ [] ∧ (splitExtension name).1 <+: name := by
  unfold splitExtension
  split
  · dsimp only
    split
    · exact ⟨hne, List.prefix_rfl⟩
    · rename_i hstem
      exact ⟨fun heq => hstem (List.isEmpty_iff.2 heq), List.take_prefix _ _⟩
  · exact ⟨hne, List.prefix_rfl⟩

/-- The second part of a name, if there is one, is made of characters of the name. -/
theorem mem_of_mem_splitExtension {name ext : List Char} (h : (splitExtension name).2 = some ext)
    {c : Char} (hc : c ∈ ext) : c ∈ name := by
  unfold splitExtension at h
  split at h
  · dsimp only at h
    split at h
    · cases h
    · obtain rfl := Option.some.inj h
      exact List.mem_reverse.1 ((List.takeWhile_sublist _).subset (List.mem_reverse.1 hc))
  · cases h

/-- What begins as a harmless name does, and goes on with characters allowed, is harmless. -/
theorem Harmless.extend {name : String} (h : Harmless name) {stem : List Char} (hne : stem ≠ [])
    (hstem : stem <+: name.toList) {tail : String} (htail : ∀ c ∈ tail.toList, isNameChar c = true) :
    Harmless (String.ofList stem ++ tail) := by
  have hchars : (String.ofList stem ++ tail).toList = stem ++ tail.toList := by
    rw [String.toList_append, String.toList_ofList]
  obtain ⟨rest, hrest⟩ := hstem
  refine ⟨?_, ?_, ?_⟩
  · intro heq
    rw [← String.toList_eq_nil_iff, hchars] at heq
    exact hne (List.append_eq_nil_iff.1 heq).1
  · rw [hchars, List.head?_append_of_ne_nil _ hne, ← List.head?_append_of_ne_nil _ hne, hrest]
    exact h.head_ne_dot
  · intro c hc
    rw [hchars] at hc
    rcases List.mem_append.1 hc with hc | hc
    · exact h.chars c (hrest ▸ List.mem_append_left rest hc)
    · exact htail c hc

/-- A number keeps a harmless name harmless. -/
theorem Harmless.numberedName {name : String} (h : Harmless name) (n : Nat) :
    Harmless (numberedName name n) := by
  have hne : name.toList ≠ [] := fun heq => h.ne_empty (String.toList_eq_nil_iff.1 heq)
  obtain ⟨hstem, hprefix⟩ := splitExtension_fst hne
  have hext := @mem_of_mem_splitExtension name.toList
  have hnumber : ∀ c ∈ (" (" ++ toString n ++ ")").toList, isNameChar c = true := by
    intro c hc
    rw [String.toList_append, String.toList_append, List.mem_append, List.mem_append] at hc
    rcases hc with (hc | hc) | hc
    · exact List.all_eq_true.1 (by decide : " (".toList.all isNameChar = true) c hc
    · exact isNameChar_of_mem_toString hc
    · exact List.all_eq_true.1 (by decide : ")".toList.all isNameChar = true) c hc
  unfold FileMarket.numberedName
  cases hsplit : splitExtension name.toList with
  | mk stem ext =>
    rw [hsplit] at hstem hprefix hext
    dsimp only
    rw [String.append_assoc]
    refine h.extend hstem hprefix ?_
    intro c hc
    rw [String.toList_append] at hc
    rcases List.mem_append.1 hc with hc | hc
    · exact hnumber c hc
    · cases ext with
      | none => cases hc
      | some ext =>
        rw [String.toList_append] at hc
        rcases List.mem_append.1 hc with hc | hc
        · exact List.all_eq_true.1 (by decide : ".".toList.all isNameChar = true) c hc
        · rw [String.toList_ofList] at hc
          exact h.chars c (hext rfl hc)

/-- Every name that a save tests is harmless. -/
theorem Harmless.candidate {name : String} (h : Harmless name) (number : Nat) :
    Harmless (Save.candidate name number) := by
  cases number with
  | zero => exact h
  | succ n => exact h.numberedName (n + 1)

end FileMarket
