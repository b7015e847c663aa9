import FileMarket.Text.Blank
import Mathlib.Data.List.DropRight
import Mathlib.Data.List.TakeWhile

/-!
# Laws of trimming

Cutting the blanks off both ends of a text is idempotent (`trim_trim`), and a trimmed text is blank
only if it is empty (`allBlank_trim`).
-/

set_option autoImplicit false

namespace FileMarket.Text

/-- Visible ASCII characters are not blank. -/
theorem isBlank_of_visible {c : Char} (hlow : 0x21 ≤ c.toNat) (hhigh : c.toNat < 0x7F) :
    isBlank c = false := by
  simp only [isBlank]
  grind

/-- Cutting blanks off the end keeps the start free of them. -/
theorem trimStartChars_trimEndChars {s : List Char} (h : trimStartChars s = s) :
    trimStartChars (trimEndChars s) = trimEndChars s := by
  obtain ⟨cut, hcut⟩ : trimEndChars s <+: s := List.rdropWhile_prefix isBlank s
  cases hs : trimEndChars s with
  | nil => rfl
  | cons c rest =>
    rw [hs] at hcut
    subst hcut
    have hc : ¬ isBlank c = true := List.dropWhile_eq_self_iff.1 h (by simp)
    exact List.dropWhile_cons_of_neg hc

theorem trimChars_trimChars (s : List Char) : trimChars (trimChars s) = trimChars s := by
  have hstart : trimStartChars (trimStartChars s) = trimStartChars s :=
    List.dropWhile_idempotent isBlank s
  unfold trimChars
  rw [trimStartChars_trimEndChars hstart]
  exact List.rdropWhile_idempotent isBlank (trimStartChars s)

/-- A trimmed text begins with no blank. -/
theorem isBlank_of_head?_trimChars {s : List Char} {c : Char} (h : (trimChars s).head? = some c) :
    isBlank c = false := by
  have hstart : trimStartChars (trimChars s) = trimChars s :=
    trimStartChars_trimEndChars (List.dropWhile_idempotent isBlank s)
  have hkept := List.head?_dropWhile_not isBlank (trimChars s)
  rw [trimStartChars] at hstart
  rw [hstart, h] at hkept
  simpa using hkept

/-- A trimmed text ends with no blank. -/
theorem isBlank_of_getLast?_trimChars {s : List Char} {c : Char}
    (h : (trimChars s).getLast? = some c) : isBlank c = false := by
  rw [trimChars, trimEndChars, List.getLast?_reverse] at h
  have hkept := List.head?_dropWhile_not isBlank (trimStartChars s).reverse
  rw [h] at hkept
  simpa using hkept

/-- Blanks in front make no difference. -/
theorem trimChars_cons {c : Char} (h : isBlank c = true) (s : List Char) :
    trimChars (c :: s) = trimChars s := by
  rw [trimChars, trimStartChars, List.dropWhile_cons_of_pos h]
  rfl

theorem trimStartChars_append {before : List Char} (h : ∀ c ∈ before, isBlank c = true)
    (s : List Char) : trimStartChars (before ++ s) = trimStartChars s :=
  List.dropWhile_append_of_pos h

theorem trimEndChars_append {after : List Char} (h : ∀ c ∈ after, isBlank c = true)
    (s : List Char) : trimEndChars (s ++ after) = trimEndChars s := by
  unfold trimEndChars
  rw [List.reverse_append, List.dropWhile_append_of_pos fun c hc => h c (List.mem_reverse.1 hc)]

/-- Blanks around a text make no difference. -/
theorem trimChars_append {before after : List Char} (hbefore : ∀ c ∈ before, isBlank c = true)
    (hafter : ∀ c ∈ after, isBlank c = true) (s : List Char) :
    trimChars (before ++ s ++ after) = trimChars s := by
  rw [trimChars, List.append_assoc, trimStartChars_append hbefore, trimStartChars,
    List.dropWhile_append]
  split
  · -- Nothing but blanks is left.
    rename_i hblank
    rw [trimChars, trimStartChars, List.isEmpty_iff.1 hblank, List.dropWhile_eq_nil_iff.2 hafter]
  · exact trimEndChars_append hafter _

/-- Only the blanks in front of a character that is none and behind it are cut off. -/
theorem trimChars_append_cons {c : Char} (h : isBlank c = false) (before after : List Char) :
    trimChars (before ++ c :: after) = trimStartChars before ++ c :: trimEndChars after := by
  have hfront : trimStartChars (before ++ c :: after) = trimStartChars before ++ c :: after := by
    rw [trimStartChars, List.dropWhile_append, List.dropWhile_cons_of_neg (by simp [h])]
    split
    · rename_i hblank
      rw [trimStartChars, List.isEmpty_iff.1 hblank, List.nil_append]
    · rfl
  have hback : ∀ s, trimEndChars (s ++ c :: after) = s ++ c :: trimEndChars after := by
    intro s
    rw [trimEndChars, List.reverse_append, List.reverse_cons, List.append_assoc,
      List.dropWhile_append, List.singleton_append, List.dropWhile_cons_of_neg (by simp [h])]
    split
    · rename_i hblank
      rw [trimEndChars, List.isEmpty_iff.1 hblank]
      simp
    · simp [trimEndChars]
  rw [trimChars, hfront, hback]

theorem trimChars_trimStartChars (s : List Char) : trimChars (trimStartChars s) = trimChars s :=
  congrArg trimEndChars (List.dropWhile_idempotent isBlank s)

/-- What is cut off at the end is blank. -/
theorem exists_trimEndChars_append (s : List Char) :
    ∃ blanks, (∀ c ∈ blanks, isBlank c = true) ∧ trimEndChars s ++ blanks = s := by
  refine ⟨(s.reverse.takeWhile isBlank).reverse,
    fun c hc => List.mem_takeWhile_imp (List.mem_reverse.1 hc), ?_⟩
  rw [trimEndChars, ← List.reverse_append, List.takeWhile_append_dropWhile, List.reverse_reverse]

theorem trimChars_trimEndChars (s : List Char) : trimChars (trimEndChars s) = trimChars s := by
  obtain ⟨blanks, hblanks, hs⟩ := exists_trimEndChars_append s
  conv_rhs => rw [← hs]
  exact (trimChars_append (List.forall_mem_nil _) hblanks _).symm

/-- The blanks at the end make no difference to a front of the text that is trimmed itself. -/
theorem trimChars_takeWhile_trimEndChars (p : Char → Bool) (s : List Char) :
    trimChars ((trimEndChars s).takeWhile p) = trimChars (s.takeWhile p) := by
  obtain ⟨blanks, hblanks, hs⟩ := exists_trimEndChars_append s
  conv_rhs => rw [← hs, List.takeWhile_append]
  split
  · -- The front goes beyond the trimmed text, and what it has there is blank.
    rename_i hwhole
    rw [(List.takeWhile_prefix p).eq_of_length hwhole]
    exact (trimChars_append (List.forall_mem_nil _)
      (fun c hc => hblanks c ((List.takeWhile_sublist p).mem hc)) _).symm
  · rfl

theorem trimChars_sublist (s : List Char) : (trimChars s).Sublist s :=
  (List.rdropWhile_prefix isBlank _).sublist.trans (List.dropWhile_sublist isBlank)

/-- Only blanks are cut off. -/
theorem mem_trimChars_iff {c : Char} (h : isBlank c = false) {s : List Char} :
    c ∈ trimChars s ↔ c ∈ s := by
  refine ⟨(trimChars_sublist s).mem, fun hc => ?_⟩
  obtain ⟨before, after, rfl⟩ := List.append_of_mem hc
  rw [trimChars_append_cons h]
  exact List.mem_append_right _ List.mem_cons_self

/-- Where no blank stands at either end, nothing is cut off. -/
theorem trimChars_of_ends {s : List Char} (hstart : ∀ c, s.head? = some c → isBlank c = false)
    (hend : ∀ c, s.getLast? = some c → isBlank c = false) : trimChars s = s := by
  have hfront : trimStartChars s = s := by
    cases s with
    | nil => rfl
    | cons c rest => exact List.dropWhile_cons_of_neg (by simp [hstart c rfl])
  have hback : trimEndChars s = s := by
    refine List.rdropWhile_eq_self_iff.2 fun hne => ?_
    simp [hend _ (List.getLast?_eq_some_getLast hne)]
  rw [trimChars, hfront, hback]

theorem trimChars_between {first last : Char} (hfirst : isBlank first = false)
    (hlast : isBlank last = false) (s : List Char) :
    trimChars (first :: (s ++ [last])) = first :: (s ++ [last]) := by
  refine trimChars_of_ends (fun c hc => ?_) fun c hc => ?_
  · obtain rfl := Option.some.inj (List.head?_cons.symm.trans hc)
    exact hfirst
  · rw [← List.cons_append, List.getLast?_concat] at hc
    obtain rfl := Option.some.inj hc
    exact hlast

/-- A trimmed text stays whole behind characters that are not blank. -/
theorem trimChars_append_of_trimmed {front s : List Char} (hfront : ∀ c ∈ front, isBlank c = false)
    (h : trimChars s = s) : trimChars (front ++ s) = front ++ s := by
  refine trimChars_of_ends (fun c hc => ?_) fun c hc => ?_
  · rw [List.head?_append, Option.or_eq_some_iff] at hc
    rcases hc with hc | ⟨-, hc⟩
    · exact hfront c (List.mem_of_head? hc)
    · exact isBlank_of_head?_trimChars (h.symm ▸ hc)
  · rw [List.getLast?_append, Option.or_eq_some_iff] at hc
    rcases hc with hc | ⟨-, hc⟩
    · exact isBlank_of_getLast?_trimChars (h.symm ▸ hc)
    · exact hfront c (List.mem_of_getLast? hc)

/-- Where nothing is blank, nothing is cut off. -/
theorem trimChars_eq_self {s : List Char} (h : ∀ c ∈ s, isBlank c = false) : trimChars s = s :=
  trimChars_of_ends (fun c hc => h c (List.mem_of_head? hc)) fun c hc => h c (List.mem_of_getLast? hc)

/-- Where no blank is counted, trimming makes no difference to a count. -/
theorem countP_trimChars {p : Char → Bool} {s : List Char}
    (h : ∀ c ∈ s, isBlank c = true → p c = false) : (trimChars s).countP p = s.countP p := by
  have hcut : ∀ t : List Char, (∀ c ∈ t, isBlank c = true → p c = false) →
      (t.dropWhile isBlank).countP p = t.countP p := by
    intro t ht
    have hblank : (t.takeWhile isBlank).countP p = 0 := List.countP_eq_zero.2 fun c hc =>
      Bool.eq_false_iff.1 (ht c ((List.takeWhile_sublist _).mem hc) (List.mem_takeWhile_imp hc))
    conv_rhs => rw [← List.takeWhile_append_dropWhile (p := isBlank) (l := t)]
    rw [List.countP_append, hblank, Nat.zero_add]
  have hfront : ∀ c ∈ (trimStartChars s).reverse, isBlank c = true → p c = false :=
    fun c hc => h c ((List.dropWhile_sublist _).mem (List.mem_reverse.1 hc))
  rw [trimChars, trimEndChars, List.countP_reverse, hcut _ hfront, List.countP_reverse,
    trimStartChars, hcut s h]

@[simp]
theorem trim_trim (s : String) : trim (trim s) = trim s := by
  unfold trim
  rw [String.toList_ofList, trimChars_trimChars]

/-- Nothing is left of a text that holds only blanks. -/
theorem trim_of_allBlank {s : String} (h : allBlank s = true) : trim s = "" := by
  have hstart : trimStartChars s.toList = [] :=
    List.dropWhile_eq_nil_iff.2 (List.all_eq_true.1 h)
  simp [trim, trimChars, hstart, trimEndChars]

/-- A trimmed text is blank only if it is empty. -/
theorem allBlank_trim {s : String} (h : trim s ≠ "") : allBlank (trim s) = false := by
  rw [← Bool.not_eq_true]
  intro hblank
  exact h (by rw [← trim_trim, trim_of_allBlank hblank])

/-- Only blanks are cut off entirely. -/
theorem allBlank_of_trim {s : String} (h : trim s = "") : allBlank s = true := by
  have hnil : trimEndChars (trimStartChars s.toList) = [] := by
    rw [← trimChars, ← trim_toList, h, String.toList_empty]
  refine List.all_eq_true.2 (List.dropWhile_eq_nil_iff.1 ?_)
  by_contra hstart
  -- The first character that is left at the front is no blank, and is not cut off at the end.
  have hall := List.dropWhile_eq_nil_iff.1 (List.reverse_eq_nil_iff.1 hnil)
  have hhead := List.head_dropWhile_not isBlank hstart
  exact absurd (hall _ (List.mem_reverse.2 (List.head_mem hstart))) (by simp [hhead])

end FileMarket.Text
