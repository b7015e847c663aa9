import FileMarket.Text.Ascii
import FileMarket.Text.Blank
import FileMarket.Text.FormValue

/-!
# File names in content dispositions

A content disposition is a list of parameters divided by semicolons. It names a file
plainly with `filename` or, in the extended form, with `filename*`; the extended form
wins wherever it stands.
-/

namespace FileMarket

open Text

/-- A parameter that names a file. -/
inductive NameParameter where
  | plain (name : String)
  | extended (name : String)
deriving DecidableEq, Repr

namespace NameParameter

/-- What stands behind the charset and language of an extended value. -/
def afterLanguage : List Char → Option (List Char)
  | [] => none
  | [_] => none
  | c :: d :: rest => if c = '\'' ∧ d = '\'' then some rest else afterLanguage (d :: rest)

/-- The name in an extended value. -/
def extendedName (value : List Char) : String :=
  formValue (String.ofList ((afterLanguage value).getD value))

/-- The name in a plain value: quotes around it do not count, nor do blanks. -/
def plainName (value : List Char) : String :=
  let unquoted := ((value.dropWhile (· == '"')).reverse.dropWhile (· == '"')).reverse
  String.ofList (trimChars unquoted)

/-- A key and what stands behind the first equals sign. -/
def splitKey : List Char → Option (List Char × List Char)
  | [] => none
  | c :: rest =>
    if c = '=' then some ([], rest)
    else (splitKey rest).map fun (key, value) => (c :: key, value)

/-- Reads a parameter, if it names a file and the name is not blank. -/
def read? (parameter : List Char) : Option NameParameter := do
  let (key, value) ← splitKey (trimChars parameter)
  let key := (trimChars key).map Char.toLower
  let value := trimChars value
  if key = "filename*".toList then
    let name := extendedName value
    if allBlank name then none else some (.extended name)
  else if key = "filename".toList then
    let name := plainName value
    if name.isEmpty then none else some (.plain name)
  else none

/-- The name of an extended parameter. -/
def extended? : NameParameter → Option String
  | .extended name => some name
  | .plain _ => none

/-- The name of a plain parameter. -/
def plain? : NameParameter → Option String
  | .plain name => some name
  | .extended _ => none

end NameParameter

/-- The parameters of a content disposition that name a file. -/
def nameParameters (disposition : String) : List NameParameter :=
  (disposition.toList.splitOn ';').filterMap NameParameter.read?

/-- The file name in a content disposition: that of the first extended parameter, else
that of the last plain one. -/
def dispositionFileName (disposition : String) : Option String :=
  let parameters := nameParameters disposition
  ((parameters.filterMap NameParameter.extended?).head?).or
    ((parameters.filterMap NameParameter.plain?).getLast?)

end FileMarket
