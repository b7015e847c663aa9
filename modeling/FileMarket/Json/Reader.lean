import FileMarket.Json.Document

/-!
# Reading JSON texts

A reader for JSON that gives the document up to the first fault of form. Each
step takes at least one character, so the length of the text bounds the steps.
-/

namespace FileMarket

open Text

namespace Document

/-- White space between the parts of a JSON text. -/
def isSpace (c : Char) : Bool := c == ' ' || c == '\n' || c == '\t' || c == '\r'

/-- A text without the white space at its front. -/
def skipSpace (s : List Char) : List Char := s.dropWhile isSpace

/-- The code of a character in quotes: the character itself, or a sixteen-bit unit
written by its number. -/
inductive Code where
  | char (c : Char)
  | unit (n : Nat)

/-- The character that a one-letter escape stands for. -/
def shortEscape? : Char → Option Char
  | '"' => some '"'
  | '\\' => some '\\'
  | '/' => some '/'
  | 'b' => some '\x08'
  | 'f' => some '\x0c'
  | 'n' => some '\n'
  | 'r' => some '\r'
  | 't' => some '\t'
  | _ => none

/-- The codes up to the closing quote, and what follows it. -/
def readCodes : List Char → Option (List Code × List Char)
  | [] => none
  | '"' :: rest => some ([], rest)
  | '\\' :: 'u' :: a :: b :: c :: d :: rest => do
    let n ← hexDigitsValue? [a, b, c, d]
    let (codes, rest) ← readCodes rest
    return (.unit n :: codes, rest)
  | '\\' :: c :: rest => do
    let c ← shortEscape? c
    let (codes, rest) ← readCodes rest
    return (.char c :: codes, rest)
  | c :: rest =>
    if c.toNat < 0x20 ∨ c = '\\' then none
    else do
      let (codes, rest) ← readCodes rest
      return (.char c :: codes, rest)

/-- The characters of a list of codes; a pair of surrogate units is one character,
and an unpaired one is none. -/
def decodeCodes : List Code → Option (List Char)
  | [] => some []
  | .char c :: rest => (decodeCodes rest).map (c :: ·)
  | .unit high :: .unit low :: rest =>
    if 0xD800 ≤ high ∧ high < 0xDC00 then
      if 0xDC00 ≤ low ∧ low < 0xE000 then
        (decodeCodes rest).map
          (Char.ofNat (0x10000 + 0x400 * (high - 0xD800) + (low - 0xDC00)) :: ·)
      else none
    else if 0xDC00 ≤ high ∧ high < 0xE000 then none
    else (decodeCodes (.unit low :: rest)).map (Char.ofNat high :: ·)
  | .unit n :: rest =>
    if 0xD800 ≤ n ∧ n < 0xE000 then none else (decodeCodes rest).map (Char.ofNat n :: ·)

/-- A string after its opening quote, and what follows it. The string itself is
none when a surrogate in it is unpaired. -/
def readText (s : List Char) : Option (Option String × List Char) :=
  (readCodes s).map fun (codes, rest) => ((decodeCodes codes).map String.ofList, rest)

/-- At least one digit, and what follows the digits. -/
def readDigits (s : List Char) : Option (List Char × List Char) :=
  let (ds, rest) := spanDigits s
  if ds.isEmpty then none else some (ds, rest)

/-- The fraction of a number, if a point begins one. -/
def readFraction : List Char → Option (Option (List Char) × List Char)
  | '.' :: rest => (readDigits rest).map fun (ds, rest) => (some ds, rest)
  | s => some (none, s)

/-- The exponent of a number, if a letter begins one. -/
def readExponent : List Char → Option (Option (Bool × List Char) × List Char)
  | [] => some (none, [])
  | c :: rest =>
    if c = 'e' ∨ c = 'E' then
      let (minus, rest) : Bool × List Char := match rest with
        | '+' :: more => (false, more)
        | '-' :: more => (true, more)
        | more => (false, more)
      (readDigits rest).map fun (ds, rest) => (some (minus, ds), rest)
    else some (none, c :: rest)

/-- A number, and what follows it. More than one digit may not begin with a zero. -/
def readNumeral (s : List Char) : Option (Numeral × List Char) := do
  let (negative, s) := match s with
    | '-' :: rest => (true, rest)
    | s => (false, s)
  let (whole, s) ← readDigits s
  if whole.head? == some '0' && 1 < whole.length then none
  let (fraction, s) ← readFraction s
  let (exponent, s) ← readExponent s
  return (⟨negative, whole, fraction, exponent⟩, s)

/-- What follows a given word, if it stands at the front. -/
def afterWord? (word : String) (s : List Char) : Option (List Char) :=
  if word.toList.isPrefixOf s then some (s.drop word.length) else none

mutual

/-- One value and what follows it; nothing follows where the text breaks off. -/
def readValue : Nat → List Char → Document × Option (List Char)
  | 0, _ => (.broken, none)
  | fuel + 1, s =>
    let word (w : String) (d : Document) := match afterWord? w (skipSpace s) with
      | some rest => (d, some rest)
      | none => (.broken, none)
    match skipSpace s with
    | 'n' :: _ => word "null" .null
    | 't' :: _ => word "true" (.bool true)
    | 'f' :: _ => word "false" (.bool false)
    | '"' :: rest => match readText rest with
      | some (content, rest) => (.text content, some rest)
      | none => (.broken, none)
    | '[' :: rest => match skipSpace rest with
      | ']' :: rest => (.array [] true, some rest)
      | rest =>
        let (items, after) := readItems fuel rest
        (.array items after.isSome, after)
    | '\x7b' :: rest => match skipSpace rest with
      | '\x7d' :: rest => (.object [] true, some rest)
      | rest =>
        let (fields, after) := readFields fuel rest
        (.object fields after.isSome, after)
    | rest => match readNumeral rest with
      | some (numeral, rest) => (.number numeral, some rest)
      | none => (.broken, none)

/-- The items of an array up to its closing bracket, and what follows it. -/
def readItems : Nat → List Char → List Document × Option (List Char)
  | 0, _ => ([], none)
  | fuel + 1, s => match readValue fuel s with
    | (item, none) => ([item], none)
    | (item, some rest) => match skipSpace rest with
      | ',' :: rest =>
        let (items, after) := readItems fuel rest
        (item :: items, after)
      | ']' :: rest => ([item], some rest)
      | _ => ([item], none)

/-- The pairs of an object up to its closing brace, and what follows it. -/
def readFields : Nat → List Char → List (String × Document) × Option (List Char)
  | 0, _ => ([], none)
  | fuel + 1, s => match skipSpace s with
    | '"' :: rest => match readText rest with
      | some (some key, rest) => match skipSpace rest with
        | ':' :: rest => match readValue fuel rest with
          | (value, none) => ([(key, value)], none)
          | (value, some rest) => match skipSpace rest with
            | ',' :: rest =>
              let (fields, after) := readFields fuel rest
              ((key, value) :: fields, after)
            | '\x7d' :: rest => ([(key, value)], some rest)
            | _ => ([(key, value)], none)
        | _ => ([(key, .broken)], none)
      | _ => ([], none)
    | _ => ([], none)

end

/-- The document at the front of a text, and whether nothing but white space follows it. -/
def read (s : String) : Document × Bool :=
  let (document, rest) := readValue (2 * s.toList.length + 1) s.toList
  (document, match rest with
    | some rest => (skipSpace rest).isEmpty
    | none => false)

end Document

/-- The value of a JSON text. -/
def Json.parse? (s : String) : Option Json :=
  match Document.read s with
  | (document, true) => document.value? Document.maxDepth
  | (_, false) => none

end FileMarket
