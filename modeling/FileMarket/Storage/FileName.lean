import FileMarket.Text.Alphanumeric
import FileMarket.Text.Blank

/-!
# Names of downloaded files

Names that come from the node are reduced to one harmless component of a path
before anything is written.
-/

namespace FileMarket

open Text

/-- The characters that a file name may have. -/
def isNameChar (c : Char) : Bool :=
  isAlphanumeric c || c == '.' || c == '-' || c == '_' || c == ' ' || c == '(' || c == ')'

/-- The components of a path. Slashes of both kinds divide it. -/
def pathComponents (name : List Char) : List (List Char) :=
  (name.map fun c => if c = '\\' then '/' else c).splitOn '/'

/-- Whether a component names something: it is not empty and neither `.` nor `..`. -/
def isNamed (component : List Char) : Bool :=
  component != [] && component != ['.'] && component != ['.', '.']

/-- A name reduced to its last component that names something, with the characters
allowed, no blanks around it and no dot at its start; `file` when nothing is left. -/
def safeNameChars (name : List Char) : List Char :=
  let last := (((pathComponents name).filter isNamed).getLast?).getD []
  let safe := (trimChars (last.filter isNameChar)).dropWhile (· == '.')
  if safe.isEmpty then "file".toList else safe

/-- A name made safe to write under. -/
def safeName (name : String) : String := String.ofList (safeNameChars name.toList)

/-- The name for a payload: the node's name for it, else the record's name. The
record's extension is put behind a name without a dot. -/
def payloadName (serverName : Option String) (recordName : String) (extension : Option String) :
    String :=
  let base := (((serverName.map trim).filter fun s => !s.isEmpty).getD recordName)
  let ext := (extension.map fun s => (trimChars s.toList).dropWhile (· == '.')).filter
    fun s => !s.isEmpty && !s.contains '/'
  match ext with
  | some ext => if base.toList.contains '.' then base else base ++ "." ++ String.ofList ext
  | none => base

/-- The part of a name before its last dot, and the part behind it. A name without
a dot, or whose only dot comes first, has no second part. -/
def splitExtension (name : List Char) : List Char × Option (List Char) :=
  if name.contains '.' then
    let ext := (name.reverse.takeWhile (· != '.')).reverse
    let stem := name.take (name.length - ext.length - 1)
    if stem.isEmpty then (name, none) else (stem, some ext)
  else (name, none)

/-- The two parts have all characters of a name but the dot between them. -/
theorem length_splitExtension (name : List Char) :
    name.length = (splitExtension name).1.length +
      (match (splitExtension name).2 with
        | some ext => ext.length + 1
        | none => 0) := by
  have hext : (name.reverse.takeWhile (· != '.')).length ≤ name.length := by
    have hreverse := (List.takeWhile_sublist (l := name.reverse) (· != '.')).length_le
    rwa [List.length_reverse] at hreverse
  unfold splitExtension
  split
  · dsimp only
    split
    · rfl
    · rename_i hstem
      rw [List.isEmpty_iff, ← List.length_eq_zero_iff] at hstem
      simp only [List.length_take, List.length_reverse] at hstem ⊢
      omega
  · rfl

/-- The `n`th other name to try for a name that is taken. -/
def numberedName (name : String) (n : Nat) : String :=
  let (stem, ext) := splitExtension name.toList
  let number := " (" ++ toString n ++ ")"
  String.ofList stem ++ number ++ match ext with
    | some ext => "." ++ String.ofList ext
    | none => ""

/-- A number makes a name longer. -/
theorem length_lt_length_numberedName (name : String) (n : Nat) :
    name.length < (numberedName name n).length := by
  have hparts := length_splitExtension name.toList
  rw [String.length_toList] at hparts
  unfold numberedName
  cases hsplit : splitExtension name.toList with
  | mk stem ext =>
    rw [hsplit] at hparts
    have hnumber : (" (" : String).length = 2 := rfl
    cases ext with
    | none =>
      simp only [String.length_append, String.length_ofList] at hparts ⊢
      omega
    | some ext =>
      have hdot : ("." : String).length = 1 := rfl
      simp only [String.length_append, String.length_ofList] at hparts ⊢
      omega

theorem numberedName_ne (name : String) (n : Nat) : numberedName name n ≠ name := by
  intro heq
  have hlength := length_lt_length_numberedName name n
  rw [heq] at hlength
  exact Nat.lt_irrefl _ hlength

/-- Different numbers make different names. -/
theorem numberedName_inj {name : String} {m n : Nat} :
    numberedName name m = numberedName name n ↔ m = n := by
  constructor
  · intro h
    unfold numberedName at h
    dsimp only at h
    rw [String.append_left_inj, String.append_right_inj, String.append_left_inj,
      String.append_right_inj, Nat.toString_eq_repr, Nat.toString_eq_repr] at h
    have hdigits : Nat.toDigits 10 m = Nat.toDigits 10 n := by
      rw [← Nat.toList_repr, h, Nat.toList_repr]
    rw [← Nat.ofDigitChars_toDigits (b := 10) (n := m) (by decide) (by decide), hdigits,
      Nat.ofDigitChars_toDigits (by decide) (by decide)]
  · rintro rfl
    rfl

/-- The name that a payload is written under before it is complete. -/
def partName (name : String) : String := "." ++ name ++ ".part"

end FileMarket
