import FileMarket.Toml.Scalar

/-!
# Reading TOML documents

A document is read line by line into its outermost table. The reader gives nothing for
a text that is no document.
-/

namespace FileMarket.Toml

/-- Whether a character can stand in a key without quotes. -/
def isKeyChar (c : Char) : Bool := c.isAlphanum || c = '_' || c = '-'

/-- One part of a key. -/
def readKeyPart (s : List Char) : Option (String × List Char) :=
  match s with
  | '"' :: _ | '\'' :: _ => readShortText s
  | s =>
    let word := s.takeWhile isKeyChar
    if word.isEmpty then none else some (String.ofList word, s.dropWhile isKeyChar)

/-- A key of one or more parts with dots between them. -/
def readKey : Nat → Reader (List String)
  | 0, _ => none
  | fuel + 1, s => do
    let (part, rest) ← readKeyPart (skipBlanks s)
    match skipBlanks rest with
    | '.' :: rest =>
      let (parts, rest) ← readKey fuel rest
      return (part :: parts, rest)
    | rest => return ([part], rest)

/-- What follows a comment up to the end of its line; none if it has a character that no
comment may have. -/
def afterComment? (s : List Char) : Option (List Char) :=
  let rest := s.dropWhile isPlain
  if rest.isEmpty || (afterBreak? rest).isSome then some rest else none

/-- A text without the blanks, comments and line breaks at its front. -/
def skipLines : Nat → List Char → Option (List Char)
  | 0, s => some s
  | fuel + 1, s => match skipBlanks s with
    | '#' :: rest => do skipLines fuel (← afterComment? rest)
    | rest => match afterBreak? rest with
      | some rest => skipLines fuel rest
      | none => some rest

mutual

/-- One value. -/
def readValue : Nat → Reader Toml
  | 0, _ => none
  | fuel + 1, s => match s with
    | '"' :: _ | '\'' :: _ => (readText s).map fun (t, rest) => (.text t, rest)
    | '[' :: rest => (readItems fuel rest).map fun (items, rest) => (.array items, rest)
    | '\x7b' :: rest => match skipBlanks rest with
      | '\x7d' :: rest => some (.table .inline [], rest)
      | rest => (readPairs fuel [] rest).map fun (fields, rest) => (.table .inline fields, rest)
    | s => readWord s

/-- The items of an array up to its closing bracket. A comma may follow the last. -/
def readItems : Nat → Reader (List Toml)
  | 0, _ => none
  | fuel + 1, s => do
    match ← skipLines s.length s with
    | ']' :: rest => return ([], rest)
    | s =>
      let (item, rest) ← readValue fuel s
      match ← skipLines rest.length rest with
      | ',' :: rest =>
        let (items, rest) ← readItems fuel rest
        return (item :: items, rest)
      | ']' :: rest => return ([item], rest)
      | _ => none

/-- The pairs of an inline table up to its closing brace. -/
def readPairs : Nat → Fields → Reader Fields
  | 0, _, _ => none
  | fuel + 1, fields, s => do
    let (key, rest) ← readKey s.length s
    let (value, rest) ← readValue fuel (skipBlanks (← after? '=' rest))
    let fields ← assign key value fields
    match skipBlanks rest with
    | ',' :: rest => readPairs fuel fields rest
    | '\x7d' :: rest => return (fields, rest)
    | _ => none

end

/-- A document as far as it has been read: the table that the next key goes to, and the
outermost table. -/
structure Draft where
  target : List String
  root : Fields

/-- Goes to the table of a header. -/
def Draft.enter (draft : Draft) (path : List String) (make : String → Fields → Option Fields) :
    Option Draft := do
  let last ← path.getLast?
  let root ← alter (make last) path.dropLast draft.root
  return ⟨path, root⟩

/-- Takes in what one line holds before its comment, and gives what follows. -/
def Draft.takeLine (draft : Draft) (s : List Char) : Option (Draft × List Char) :=
  match s with
  | [] | '#' :: _ | '\n' :: _ | '\r' :: _ => some (draft, s)
  | '[' :: '[' :: rest => do
    let (path, rest) ← readKey rest.length rest
    let rest ← after? ']' (← after? ']' rest)
    return (← draft.enter path openEntry, rest)
  | '[' :: rest => do
    let (path, rest) ← readKey rest.length rest
    return (← draft.enter path openTable, ← after? ']' rest)
  | s => do
    let (key, rest) ← readKey s.length s
    let (value, rest) ← readValue rest.length (skipBlanks (← after? '=' rest))
    return ({ draft with root := ← alter (assign key value) draft.target draft.root }, rest)

/-- What follows the end of a line, behind blanks and a comment. -/
def afterLine? (s : List Char) : Option (List Char) := do
  let rest ← match skipBlanks s with
    | '#' :: rest => afterComment? rest
    | rest => some rest
  if rest.isEmpty then return [] else afterBreak? rest

/-- Reads lines to the end of the text. -/
def readLines : Nat → Draft → List Char → Option Fields
  | 0, _, _ => none
  | fuel + 1, draft, s => do
    let (draft, rest) ← draft.takeLine (skipBlanks s)
    let rest ← afterLine? rest
    if rest.isEmpty then return draft.root else readLines fuel draft rest

/-- The outermost table of a document. A byte order mark at its front does not count. -/
def parse? (text : String) : Option Fields :=
  let s := match text.toList with
    | '\uFEFF' :: rest => rest
    | s => s
  readLines (s.length + 1) ⟨[], []⟩ s

end FileMarket.Toml
