import FileMarket.Proofs.Disposition.Parameters

/-!
# Which parameter names the file

A content disposition may have any number of parameters that name a file, in either form and in any
order. The first extended parameter that decodes to a name is taken, wherever plain ones stand; only
without one the last plain parameter with a name is. So a name is never blank, and where an extended
parameter gives one the plain parameters make no difference.

Main statement: `disposition_name_chosen`. What a parameter gives is said here of its written form:
the key stands in front of the first equals sign, in any case and with any blanks around it.
-/

set_option autoImplicit false

namespace FileMarket.NameParameter

open Text

variable {key name : String} {parameter value : List Char}

/-! ## Written parameters -/

/-- A parameter with a given key in front of its first equals sign, and the value behind it. -/
def HasKey (key : String) (parameter value : List Char) : Prop :=
  ∃ front, parameter = front ++ '=' :: value ∧ '=' ∉ front ∧
    (trimChars front).map Char.toLower = key.toList

/-- A parameter with a given key whose value is decoded to a name that is not blank. -/
def Gives (key : String) (decode : List Char → String) (parameter : List Char) (name : String) :
    Prop :=
  ∃ value, HasKey key parameter value ∧ decode (trimChars value) = name ∧ allBlank name = false

/-- What an extended parameter gives. -/
abbrev GivesExtended : List Char → String → Prop := Gives "filename*" extendedName

/-- What a plain parameter gives, without quotes and blanks. -/
abbrev GivesPlain : List Char → String → Prop := Gives "filename" plainName

/-- The blanks at the ends of a parameter do not get into its key nor, once trimmed, its value. -/
theorem exists_splitKey_of_hasKey (h : HasKey key parameter value) :
    ∃ front back, splitKey (trimChars parameter) = some (front, back) ∧
      keyOf parameter = key.toList ∧ trimChars back = trimChars value := by
  obtain ⟨front, rfl, hfront, hkey⟩ := h
  have hequals : isBlank '=' = false := by decide
  have hsplit : splitKey (trimChars (front ++ '=' :: value)) =
      some (trimStartChars front, trimEndChars value) := by
    rw [splitKey_eq_some_iff, trimChars_append_cons hequals]
    exact ⟨rfl, fun hmem => hfront ((List.dropWhile_sublist _).mem hmem)⟩
  refine ⟨_, _, hsplit, ?_, trimChars_trimEndChars value⟩
  rw [keyOf_of_split hsplit, trimChars_trimStartChars, hkey]

theorem hasKey_of_splitKey {front back : List Char}
    (h : splitKey (trimChars parameter) = some (front, back))
    (hkey : keyOf parameter = key.toList) :
    ∃ value, HasKey key parameter value ∧ trimChars back = trimChars value := by
  -- Trimming leaves the first equals sign where it is.
  have hmem : '=' ∈ parameter := by
    refine (trimChars_sublist parameter).mem ?_
    rw [(splitKey_eq_some_iff.1 h).1]
    exact List.mem_append_right _ List.mem_cons_self
  obtain ⟨before, value, rfl, hbefore⟩ := List.eq_append_cons_of_mem hmem
  have hwritten : HasKey (String.ofList ((trimChars before).map Char.toLower))
      (before ++ '=' :: value) value := ⟨before, rfl, hbefore, by rw [String.toList_ofList]⟩
  obtain ⟨front', back', hsplit, hkey', hback⟩ := exists_splitKey_of_hasKey hwritten
  obtain ⟨rfl, rfl⟩ := Prod.mk.inj (Option.some.inj (hsplit.symm.trans h))
  refine ⟨value, ⟨before, rfl, hbefore, ?_⟩, hback⟩
  rw [← hkey, hkey', String.toList_ofList]

theorem read?_eq_extended_iff :
    read? parameter = some (.extended name) ↔ GivesExtended parameter name := by
  constructor
  · intro h
    obtain ⟨front, back, hsplit, ⟨hkey, hname⟩ | ⟨-, hother⟩⟩ := read?_eq_some h
    · obtain ⟨value, hwritten, hback⟩ := hasKey_of_splitKey hsplit hkey
      rw [read?_extended hsplit hkey] at h
      split at h
      · cases h
      · rename_i hnonblank
        obtain rfl := extended.inj hname
        exact ⟨value, hwritten, by rw [hback], Bool.eq_false_iff.2 hnonblank⟩
    · cases hother
  · rintro ⟨value, hwritten, rfl, hnonblank⟩
    obtain ⟨front, back, hsplit, hkey, hback⟩ := exists_splitKey_of_hasKey hwritten
    rw [read?_extended hsplit hkey, hback, if_neg (by simp [hnonblank])]

/-- A plain name is trimmed, so it is blank only if nothing is left of it. -/
theorem allBlank_plainName (h : (plainName value).isEmpty = false) :
    allBlank (plainName value) = false := by
  rw [plainName, ← String.toList_ofList (l := List.reverse _), ← trim] at h ⊢
  refine allBlank_trim fun hempty => ?_
  rw [hempty] at h
  cases h

theorem read?_eq_plain_iff :
    read? parameter = some (.plain name) ↔ GivesPlain parameter name := by
  constructor
  · intro h
    obtain ⟨front, back, hsplit, ⟨-, hother⟩ | ⟨hkey, hname⟩⟩ := read?_eq_some h
    · cases hother
    · obtain ⟨value, hwritten, hback⟩ := hasKey_of_splitKey hsplit hkey
      rw [read?_plain hsplit hkey] at h
      split at h
      · cases h
      · rename_i hnonempty
        obtain rfl := plain.inj hname
        exact ⟨value, hwritten, by rw [hback], allBlank_plainName (Bool.eq_false_iff.2 hnonempty)⟩
  · rintro ⟨value, hwritten, rfl, hnonblank⟩
    obtain ⟨front, back, hsplit, hkey, hback⟩ := exists_splitKey_of_hasKey hwritten
    rw [read?_plain hsplit hkey, hback, if_neg]
    intro hempty
    rw [String.isEmpty_iff.1 hempty] at hnonblank
    cases hnonblank

end FileMarket.NameParameter

namespace FileMarket

open NameParameter Text

/-! ## The choice among all parameters -/

/-- A content disposition of the given parameters. -/
def joinedParameters (parameters : List (List Char)) : String :=
  String.ofList ([';'].intercalate parameters)

/-- The name that is taken from some parameters. -/
inductive ChosenName (parameters : List (List Char)) : Option String → Prop
  /-- The first extended parameter that gives a name. -/
  | extended (before after : List (List Char)) (parameter : List Char) (name : String)
      (stands : parameters = before ++ parameter :: after) (gives : GivesExtended parameter name)
      (first : ∀ p ∈ before, ∀ other, ¬ GivesExtended p other) : ChosenName parameters (some name)
  /-- Without one, the last plain parameter that gives a name. -/
  | plain (before after : List (List Char)) (parameter : List Char) (name : String)
      (withoutExtended : ∀ p ∈ parameters, ∀ other, ¬ GivesExtended p other)
      (stands : parameters = before ++ parameter :: after) (gives : GivesPlain parameter name)
      (last : ∀ p ∈ after, ∀ other, ¬ GivesPlain p other) : ChosenName parameters (some name)
  /-- Without either, none. -/
  | nothing (withoutExtended : ∀ p ∈ parameters, ∀ other, ¬ GivesExtended p other)
      (withoutPlain : ∀ p ∈ parameters, ∀ other, ¬ GivesPlain p other) : ChosenName parameters none

variable {parameters : List (List Char)} {parameter : List Char} {name : String}

theorem nameParameters_joined (whole : ∀ p ∈ parameters, ';' ∉ p) :
    nameParameters (joinedParameters parameters) = parameters.filterMap read? := by
  rw [nameParameters, joinedParameters, String.toList_ofList]
  by_cases hnone : parameters = []
  · rw [hnone]
    rfl
  · rw [List.splitOn_intercalate ';' whole hnone]

/-- The extended name of a parameter, if it gives one. -/
def extendedIn? (parameter : List Char) : Option String := (read? parameter).bind extended?

/-- The plain name of a parameter, if it gives one. -/
def plainIn? (parameter : List Char) : Option String := (read? parameter).bind plain?

theorem extendedIn?_eq_some_iff :
    extendedIn? parameter = some name ↔ GivesExtended parameter name := by
  rw [← read?_eq_extended_iff, extendedIn?]
  rcases read? parameter with _ | _ | _ <;> simp [extended?]

theorem plainIn?_eq_some_iff : plainIn? parameter = some name ↔ GivesPlain parameter name := by
  rw [← read?_eq_plain_iff, plainIn?]
  rcases read? parameter with _ | _ | _ <;> simp [plain?]

theorem extendedIn?_eq_none_iff :
    extendedIn? parameter = none ↔ ∀ name, ¬ GivesExtended parameter name := by
  simp only [Option.eq_none_iff_forall_ne_some, ← extendedIn?_eq_some_iff, Ne]

theorem plainIn?_eq_none_iff : plainIn? parameter = none ↔ ∀ name, ¬ GivesPlain parameter name := by
  simp only [Option.eq_none_iff_forall_ne_some, ← plainIn?_eq_some_iff, Ne]

/-- The first extended name is looked for from the front, the last plain one from the back. -/
theorem dispositionFileName_joined (whole : ∀ p ∈ parameters, ';' ∉ p) :
    dispositionFileName (joinedParameters parameters) =
      (parameters.findSome? extendedIn?).or (parameters.reverse.findSome? plainIn?) := by
  rw [dispositionFileName, nameParameters_joined whole, List.filterMap_filterMap,
    List.filterMap_filterMap, List.head?_filterMap, List.getLast?_filterMap]
  rfl

theorem findSome?_extendedIn?_eq_some_iff :
    parameters.findSome? extendedIn? = some name ↔
      ∃ before parameter after, parameters = before ++ parameter :: after ∧
        GivesExtended parameter name ∧ ∀ p ∈ before, ∀ other, ¬ GivesExtended p other := by
  simp only [List.findSome?_eq_some_iff, extendedIn?_eq_some_iff, extendedIn?_eq_none_iff]

theorem findSome?_extendedIn?_eq_none_iff : parameters.findSome? extendedIn? = none ↔
    ∀ p ∈ parameters, ∀ other, ¬ GivesExtended p other := by
  simp only [List.findSome?_eq_none_iff, extendedIn?_eq_none_iff]

/-- Looked for from the back, what is found first stands last. -/
theorem findSome?_plainIn?_eq_some_iff :
    parameters.reverse.findSome? plainIn? = some name ↔
      ∃ before parameter after, parameters = before ++ parameter :: after ∧
        GivesPlain parameter name ∧ ∀ p ∈ after, ∀ other, ¬ GivesPlain p other := by
  simp only [List.findSome?_eq_some_iff, plainIn?_eq_some_iff, plainIn?_eq_none_iff]
  constructor
  · rintro ⟨after, parameter, before, hstands, hgives, hlast⟩
    refine ⟨before.reverse, parameter, after.reverse, ?_, hgives, fun p hp =>
      hlast p (List.mem_reverse.1 hp)⟩
    rw [← List.reverse_reverse parameters, hstands]
    simp
  · rintro ⟨before, parameter, after, rfl, hgives, hlast⟩
    exact ⟨after.reverse, parameter, before.reverse, by simp, hgives, fun p hp =>
      hlast p (List.mem_reverse.1 hp)⟩

theorem findSome?_plainIn?_eq_none_iff : parameters.reverse.findSome? plainIn? = none ↔
    ∀ p ∈ parameters, ∀ other, ¬ GivesPlain p other := by
  simp only [List.findSome?_eq_none_iff, plainIn?_eq_none_iff, List.mem_reverse]

theorem dispositionFileName_eq_iff (whole : ∀ p ∈ parameters, ';' ∉ p) (result : Option String) :
    dispositionFileName (joinedParameters parameters) = result ↔ ChosenName parameters result := by
  rw [dispositionFileName_joined whole]
  constructor
  · rintro rfl
    cases hextended : parameters.findSome? extendedIn? with
    | some name =>
      obtain ⟨before, parameter, after, stands, gives, first⟩ :=
        findSome?_extendedIn?_eq_some_iff.1 hextended
      exact .extended before after parameter name stands gives first
    | none =>
      have hwithout := findSome?_extendedIn?_eq_none_iff.1 hextended
      cases hplain : parameters.reverse.findSome? plainIn? with
      | some name =>
        obtain ⟨before, parameter, after, stands, gives, last⟩ :=
          findSome?_plainIn?_eq_some_iff.1 hplain
        exact .plain before after parameter name hwithout stands gives last
      | none => exact .nothing hwithout (findSome?_plainIn?_eq_none_iff.1 hplain)
  · intro h
    cases h with
    | extended before after parameter name stands gives first =>
      rw [findSome?_extendedIn?_eq_some_iff.2 ⟨before, parameter, after, stands, gives, first⟩]
      rfl
    | plain before after parameter name withoutExtended stands gives last =>
      rw [findSome?_extendedIn?_eq_none_iff.2 withoutExtended, Option.none_or]
      exact findSome?_plainIn?_eq_some_iff.2 ⟨before, parameter, after, stands, gives, last⟩
    | nothing withoutExtended withoutPlain =>
      rw [findSome?_extendedIn?_eq_none_iff.2 withoutExtended, Option.none_or]
      exact findSome?_plainIn?_eq_none_iff.2 withoutPlain

theorem ChosenName.allBlank (h : ChosenName parameters (some name)) : allBlank name = false := by
  cases h with
  | extended before after parameter name stands gives first =>
    obtain ⟨-, -, -, hnonblank⟩ := gives
    exact hnonblank
  | plain before after parameter name withoutExtended stands gives last =>
    obtain ⟨-, -, -, hnonblank⟩ := gives
    exact hnonblank

/-- Whether a parameter has the plain key. -/
def isPlain (parameter : List Char) : Bool := keyOf parameter == "filename".toList

theorem extendedIn?_of_isPlain (h : isPlain parameter = true) : extendedIn? parameter = none := by
  rw [extendedIn?_eq_none_iff]
  rintro name ⟨value, hwritten, -, -⟩
  obtain ⟨-, -, -, hkey, -⟩ := exists_splitKey_of_hasKey hwritten
  rw [isPlain, beq_iff_eq, hkey] at h
  exact absurd h (by decide)

/-- Without the plain parameters the same extended name is found. -/
theorem findSome?_extendedIn?_filter (parameters : List (List Char)) :
    (parameters.filter (!isPlain ·)).findSome? extendedIn? =
      parameters.findSome? extendedIn? := by
  rw [← List.head?_filterMap, ← List.head?_filterMap, List.filterMap_filter]
  refine congrArg (fun f => (parameters.filterMap f).head?) (funext fun p => ?_)
  cases hplain : isPlain p with
  | true => exact (extendedIn?_of_isPlain hplain).symm
  | false => rfl

/-- Where some extended parameter gives a name, only the parameters that are not plain matter. -/
theorem dispositionFileName_eq_of_filter_eq {others : List (List Char)}
    (whole : ∀ p ∈ parameters, ';' ∉ p) (whole' : ∀ p ∈ others, ';' ∉ p)
    (usable : ∃ p ∈ parameters, ∃ name, GivesExtended p name)
    (same : others.filter (!isPlain ·) = parameters.filter (!isPlain ·)) :
    dispositionFileName (joinedParameters others) =
      dispositionFileName (joinedParameters parameters) := by
  obtain ⟨p, hp, name, hgives⟩ := usable
  have hfound : (parameters.findSome? extendedIn?).isSome = true :=
    List.findSome?_isSome_iff.2 ⟨p, hp, by rw [extendedIn?_eq_some_iff.2 hgives]; rfl⟩
  obtain ⟨chosen, hchosen⟩ := Option.isSome_iff_exists.1 hfound
  rw [dispositionFileName_joined whole, dispositionFileName_joined whole',
    ← findSome?_extendedIn?_filter others, same, findSome?_extendedIn?_filter, hchosen]
  rfl

/-- Of parameters without semicolons, however many there are and in whatever order, the first
extended one that gives a name is taken, else the last plain one that gives a name, else none. The
name is never blank. Where some extended parameter gives a name, plain parameters can be added,
taken away and moved without making a difference. -/
theorem disposition_name_chosen (parameters : List (List Char))
    (whole : ∀ p ∈ parameters, ';' ∉ p) :
    (∀ result, dispositionFileName (joinedParameters parameters) = result ↔
        ChosenName parameters result) ∧
      (∀ name, dispositionFileName (joinedParameters parameters) = some name →
        allBlank name = false) ∧
      ∀ others : List (List Char), (∀ p ∈ others, ';' ∉ p) →
        (∃ p ∈ parameters, ∃ name, GivesExtended p name) →
          others.filter (!isPlain ·) = parameters.filter (!isPlain ·) →
            dispositionFileName (joinedParameters others) =
              dispositionFileName (joinedParameters parameters) :=
  ⟨dispositionFileName_eq_iff whole,
    fun _ hname => ((dispositionFileName_eq_iff whole _).1 hname).allBlank,
    fun _ whole' usable same => dispositionFileName_eq_of_filter_eq whole whole' usable same⟩

/-- Two extended parameters, the first of which is blank, between plain ones. -/
def mixedParameters : List (List Char) :=
  ["attachment".toList, " FileName = old.txt".toList, " filename*=UTF-8''%20".toList,
    " FILENAME* =UTF-8''caf%C3%A9 ".toList, "filename=\"late.txt\"".toList]

/-- The same with another plain parameter, in front. -/
def movedParameters : List (List Char) :=
  ["filename=new.txt".toList, "attachment".toList, " filename*=UTF-8''%20".toList,
    " FILENAME* =UTF-8''caf%C3%A9 ".toList]

theorem mixedParameters_name :
    (∀ p ∈ mixedParameters, ';' ∉ p) ∧ (∀ p ∈ movedParameters, ';' ∉ p) ∧
      (∃ p ∈ mixedParameters, ∃ name, GivesExtended p name) ∧
      movedParameters.filter (!isPlain ·) = mixedParameters.filter (!isPlain ·) ∧
      ChosenName mixedParameters (some "café") ∧ allBlank "café" = false ∧
      dispositionFileName (joinedParameters movedParameters) = some "café" := by
  have hwhole : ∀ p ∈ mixedParameters, ';' ∉ p := by decide
  have hwhole' : ∀ p ∈ movedParameters, ';' ∉ p := by decide
  have husable : ∃ p ∈ mixedParameters, ∃ name, GivesExtended p name :=
    ⟨" FILENAME* =UTF-8''caf%C3%A9 ".toList, by decide, "café",
      extendedIn?_eq_some_iff.1 (by decide +kernel)⟩
  have hsame : movedParameters.filter (!isPlain ·) = mixedParameters.filter (!isPlain ·) := by
    decide
  have hname : dispositionFileName (joinedParameters mixedParameters) = some "café" := by
    decide +kernel
  obtain ⟨chosen, nonblank, moved⟩ := disposition_name_chosen mixedParameters hwhole
  exact ⟨hwhole, hwhole', husable, hsame, (chosen _).1 hname, nonblank _ hname,
    (moved movedParameters hwhole' husable hsame).trans hname⟩

end FileMarket
