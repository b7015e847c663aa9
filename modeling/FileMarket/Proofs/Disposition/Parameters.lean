import FileMarket.Disposition
import FileMarket.Proofs.Text.Blank
import Mathlib.Tactic

/-!
# Parameters of content dispositions

How one parameter is read, by what stands before its first equals sign: the two keys that name a file
and all others.
-/

set_option autoImplicit false

namespace FileMarket.NameParameter

open Text

variable {parameter key value : List Char}

/-- A parameter is divided at its first equals sign. -/
theorem splitKey_eq_some_iff :
    splitKey parameter = some (key, value) ↔ parameter = key ++ '=' :: value ∧ '=' ∉ key := by
  induction parameter generalizing key with
  | nil => simp [splitKey]
  | cons c rest ih =>
    rw [splitKey]
    by_cases hc : c = '='
    · subst hc
      rw [if_pos rfl]
      cases key with
      | nil => simp [eq_comm]
      | cons k key =>
        simp only [Option.some.injEq, Prod.mk.injEq, List.cons_append, List.cons.injEq,
          List.mem_cons, not_or, false_and, reduceCtorEq]
        tauto
    · rw [if_neg hc]
      cases key with
      | nil => simp [hc]
      | cons k key =>
        simp only [Option.map_eq_some_iff, Prod.mk.injEq, List.cons.injEq, Prod.exists,
          List.cons_append, List.mem_cons, not_or]
        constructor
        · rintro ⟨key', value', hsplit, ⟨rfl, rfl⟩, rfl⟩
          obtain ⟨hrest, hkey⟩ := ih.1 hsplit
          exact ⟨⟨rfl, hrest⟩, Ne.symm hc, hkey⟩
        · rintro ⟨⟨rfl, hrest⟩, -, hkey⟩
          exact ⟨key, value, ih.2 ⟨hrest, hkey⟩, ⟨rfl, rfl⟩, rfl⟩

/-- The key of a parameter, without the blanks around it and in small letters. A parameter without
an equals sign is all key. -/
def keyOf (parameter : List Char) : List Char :=
  (trimChars ((trimChars parameter).takeWhile (· != '='))).map Char.toLower

theorem keyOf_of_split (h : splitKey (trimChars parameter) = some (key, value)) :
    keyOf parameter = (trimChars key).map Char.toLower := by
  obtain ⟨hparameter, hkey⟩ := splitKey_eq_some_iff.1 h
  have hall : ∀ c ∈ key, (c != '=') = true := fun c hc => bne_iff_ne.2 fun heq => hkey (heq ▸ hc)
  rw [keyOf, hparameter, List.takeWhile_append_of_pos hall, List.takeWhile_cons_of_neg (by decide),
    List.append_nil]

/-! ## Reading a parameter -/

/-- The name of a parameter of either kind. -/
def name : NameParameter → String
  | plain name => name
  | extended name => name

/-- The extended key: what the value decodes to is the name, unless it is blank. -/
theorem read?_extended (h : splitKey (trimChars parameter) = some (key, value))
    (hkey : keyOf parameter = "filename*".toList) :
    read? parameter = if allBlank (extendedName (trimChars value)) then none
      else some (.extended (extendedName (trimChars value))) := by
  rw [keyOf_of_split h] at hkey
  simp only [read?, h, Option.bind_eq_bind, Option.bind_some, hkey, if_true]

/-- The plain key: what is left of the value without quotes and blanks is the name, if there is any
of it. -/
theorem read?_plain (h : splitKey (trimChars parameter) = some (key, value))
    (hkey : keyOf parameter = "filename".toList) :
    read? parameter = if (plainName (trimChars value)).isEmpty then none
      else some (.plain (plainName (trimChars value))) := by
  rw [keyOf_of_split h] at hkey
  have hother : "filename".toList ≠ "filename*".toList := by decide
  simp only [read?, h, Option.bind_eq_bind, Option.bind_some, hkey, if_neg hother, if_true]

/-- A parameter without an equals sign names no file. -/
theorem read?_of_no_equals (h : splitKey (trimChars parameter) = none) : read? parameter = none := by
  rw [read?, h]
  rfl

/-- A parameter with another key names no file. -/
theorem read?_of_keyOf_ne (hextended : keyOf parameter ≠ "filename*".toList)
    (hplain : keyOf parameter ≠ "filename".toList) : read? parameter = none := by
  cases hsplit : splitKey (trimChars parameter) with
  | none => exact read?_of_no_equals hsplit
  | some parts =>
    obtain ⟨key, value⟩ := parts
    rw [keyOf_of_split hsplit] at hextended hplain
    simp only [read?, hsplit, Option.bind_eq_bind, Option.bind_some, if_neg hextended, if_neg hplain]

/-- Every name is read off a parameter with one of the two keys. -/
theorem read?_eq_some {read : NameParameter} (h : read? parameter = some read) :
    ∃ key value, splitKey (trimChars parameter) = some (key, value) ∧
      (keyOf parameter = "filename*".toList ∧ read = .extended (extendedName (trimChars value)) ∨
        keyOf parameter = "filename".toList ∧ read = .plain (plainName (trimChars value))) := by
  cases hsplit : splitKey (trimChars parameter) with
  | none =>
    rw [read?_of_no_equals hsplit] at h
    cases h
  | some parts =>
    obtain ⟨key, value⟩ := parts
    refine ⟨key, value, rfl, ?_⟩
    by_cases hextended : keyOf parameter = "filename*".toList
    · rw [read?_extended hsplit hextended] at h
      split at h
      · cases h
      · exact Or.inl ⟨hextended, (Option.some.inj h).symm⟩
    · by_cases hplain : keyOf parameter = "filename".toList
      · rw [read?_plain hsplit hplain] at h
        split at h
        · cases h
        · exact Or.inr ⟨hplain, (Option.some.inj h).symm⟩
      · rw [read?_of_keyOf_ne hextended hplain] at h
        cases h

end FileMarket.NameParameter

namespace FileMarket

open Text

/-- The parameters of a content disposition that begins with its type. -/
theorem nameParameters_attachment (parameters : List Char) :
    nameParameters (String.ofList ("attachment".toList ++ ';' :: parameters)) =
      (parameters.splitOn ';').filterMap NameParameter.read? := by
  have hnone : NameParameter.read? "attachment".toList = none := by decide
  rw [nameParameters, String.toList_ofList, List.splitOn_append_cons_self_of_not_mem (by decide),
    List.filterMap_cons_none hnone]

/-- The name in a content disposition is that of one of its parameters. -/
theorem exists_mem_nameParameters_of_dispositionFileName {disposition name : String}
    (h : dispositionFileName disposition = some name) :
    ∃ read ∈ nameParameters disposition, read.name = name := by
  rw [dispositionFileName, Option.or_eq_some_iff] at h
  rcases h with hextended | ⟨-, hplain⟩
  · obtain ⟨read, hmem, hread⟩ := List.mem_filterMap.1 (List.mem_of_mem_head? hextended)
    cases read with
    | extended other => exact ⟨_, hmem, Option.some.inj hread⟩
    | plain other => cases hread
  · obtain ⟨read, hmem, hread⟩ := List.mem_filterMap.1 (List.mem_of_getLast? hplain)
    cases read with
    | plain other => exact ⟨_, hmem, Option.some.inj hread⟩
    | extended other => cases hread

end FileMarket
