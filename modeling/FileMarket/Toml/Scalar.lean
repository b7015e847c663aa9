import FileMarket.Calendar.Date
import FileMarket.Decimal.Reader
import FileMarket.Text.Ascii
import FileMarket.Toml.Table

/-!
# Texts, numbers and times in TOML

Each reader takes one value from the front of a text and gives it with what follows it.
-/

namespace FileMarket.Toml

open FileMarket.Text

/-- A reader of what stands at the front of a text. -/
abbrev Reader (α : Type) := List Char → Option (α × List Char)

/-- Whether a character can stand in a comment and, but for its quote, in a text. -/
def isPlain (c : Char) : Bool := c = '\t' || (0x20 ≤ c.toNat && c.toNat ≠ 0x7F)

/-- What follows a line break, if one stands at the front. -/
def afterBreak? : List Char → Option (List Char)
  | '\n' :: rest => some rest
  | '\r' :: '\n' :: rest => some rest
  | _ => none

/-- A text without the blanks and tabs at its front. -/
def skipBlanks (s : List Char) : List Char := s.dropWhile fun c => c = ' ' || c = '\t'

/-- The character with a given code. -/
def charOf? (code : Nat) : Option Char :=
  if code.isValidChar then some (Char.ofNat code) else none

/-- The character that an escape stands for, from what follows the backslash. -/
def readEscape : Reader Char
  | 'b' :: rest => some ('\x08', rest)
  | 't' :: rest => some ('\t', rest)
  | 'n' :: rest => some ('\n', rest)
  | 'f' :: rest => some ('\x0c', rest)
  | 'r' :: rest => some ('\r', rest)
  | '"' :: rest => some ('"', rest)
  | '\\' :: rest => some ('\\', rest)
  | 'u' :: a :: b :: c :: d :: rest =>
    ((hexDigitsValue? [a, b, c, d]).bind charOf?).map (·, rest)
  | 'U' :: a :: b :: c :: d :: e :: f :: g :: h :: rest =>
    ((hexDigitsValue? [a, b, c, d, e, f, g, h]).bind charOf?).map (·, rest)
  | _ => none

/-- A text in double quotes, from behind the first. -/
def readBasic : Nat → Reader (List Char)
  | 0, _ => none
  | fuel + 1, s => match s with
    | [] => none
    | '"' :: rest => some ([], rest)
    | '\\' :: rest => do
      let (c, rest) ← readEscape rest
      let (cs, rest) ← readBasic fuel rest
      return (c :: cs, rest)
    | c :: rest =>
      if isPlain c then do
        let (cs, rest) ← readBasic fuel rest
        return (c :: cs, rest)
      else none

/-- A text in single quotes, from behind the first. Nothing is escaped in it. -/
def readLiteral : Reader (List Char)
  | [] => none
  | '\'' :: rest => some ([], rest)
  | c :: rest =>
    if isPlain c then do
      let (cs, rest) ← readLiteral rest
      return (c :: cs, rest)
    else none

/-- The quotes at the front and what follows them. Three of them end a long text; up to
two more before the end belong to it. -/
def readQuotes (quote : Char) (s : List Char) : Nat × List Char :=
  let count := min 5 (s.takeWhile (· == quote)).length
  (count, s.drop count)

/-- What follows all blanks, tabs and line breaks at the front, of which there must be
at least one break on the first line. -/
def afterContinuation? (s : List Char) : Option (List Char) :=
  (afterBreak? (skipBlanks s)).map fun rest =>
    rest.dropWhile fun c => c = ' ' || c = '\t' || c = '\n' || c = '\r'

/-- A text of several lines in three quotes of a kind, from behind the first three. A
line break counts as one character. In double quotes there are escapes, and a backslash
at the end of a line joins it to the next text. -/
def readLong (quote : Char) : Nat → Reader (List Char)
  | 0, _ => none
  | fuel + 1, s =>
    let push (c : Char) (rest : List Char) : Option (List Char × List Char) := do
      let (cs, rest) ← readLong quote fuel rest
      return (c :: cs, rest)
    match afterBreak? s with
    | some rest => push '\n' rest
    | none => match s with
      | [] => none
      | c :: rest =>
        if c = quote then
          let (count, after) := readQuotes quote s
          if 3 ≤ count then some (List.replicate (count - 3) quote, after) else push c rest
        else if c = '\\' ∧ quote = '"' then
          match afterContinuation? rest with
          | some rest => readLong quote fuel rest
          | none => do
            let (c, rest) ← readEscape rest
            push c rest
        else if isPlain c then push c rest
        else none

/-- A text on one line. -/
def readShortText : Reader String
  | '"' :: rest => (readBasic (rest.length + 1) rest).map fun (cs, rest) => (String.ofList cs, rest)
  | '\'' :: rest => (readLiteral rest).map fun (cs, rest) => (String.ofList cs, rest)
  | _ => none

/-- A text in quotes of any kind. The line break behind three opening quotes does not
count. -/
def readText (s : List Char) : Option (String × List Char) :=
  let long (quote : Char) (rest : List Char) :=
    (readLong quote (rest.length + 1) ((afterBreak? rest).getD rest)).map
      fun (cs, rest) => (String.ofList cs, rest)
  match s with
  | '"' :: '"' :: '"' :: rest => long '"' rest
  | '\'' :: '\'' :: '\'' :: rest => long '\'' rest
  | s => readShortText s

/-- The digits of a run in which single underscores stand between digits. -/
def digitRun? (isDigit : Char → Bool) (s : List Char) : Option (List Char) :=
  let groups := s.splitOn '_'
  if groups.all fun group => !group.isEmpty && group.all isDigit then some groups.flatten else none

/-- The value of digits in a base of at most sixteen. -/
def valueIn (base : Nat) (ds : List Char) : Nat :=
  ds.foldl (fun n c => base * n + (hexValue? c).getD 0) 0

/-- The digits in a base that is not ten. -/
def basedValue? (base : Nat) (s : List Char) : Option Nat :=
  (digitRun? (fun c => (hexValue? c).any (· < base)) s).map (valueIn base)

/-- Decimal digits that are not several with a zero in front. -/
def wholeDigits? (s : List Char) : Option (List Char) :=
  (digitRun? Char.isDigit s).filter fun ds => ds.length = 1 || ds.head? != some '0'

/-- The sign of a number, and what follows it. -/
def splitSign : List Char → Bool × List Char
  | '+' :: rest => (false, rest)
  | '-' :: rest => (true, rest)
  | s => (false, s)

/-- An integer that fits sixty-four bits. -/
def integer? (s : List Char) : Option Int :=
  let value? : Option Int := match s with
    | '0' :: 'x' :: ds => (basedValue? 16 ds).map Int.ofNat
    | '0' :: 'o' :: ds => (basedValue? 8 ds).map Int.ofNat
    | '0' :: 'b' :: ds => (basedValue? 2 ds).map Int.ofNat
    | s =>
      let (negative, ds) := splitSign s
      (wholeDigits? ds).map fun ds => if negative then -(digitsValue ds : Int) else digitsValue ds
  value?.filter fun n => Int64.minValue.toInt ≤ n && n ≤ Int64.maxValue.toInt

/-- Whether a text is an exponent, from behind its letter. -/
def isExponent (s : List Char) : Bool := (digitRun? Char.isDigit (splitSign s).2).isSome

/-- Whether a text is a fraction with a value below infinity, or the word for no number
or for an infinite one. -/
def isReal (s : List Char) : Bool :=
  let (_, body) := splitSign s
  if body = "inf".toList ∨ body = "nan".toList then true
  else
    let isMark (c : Char) : Bool := c = 'e' || c = 'E'
    let mantissa := body.takeWhile (!isMark ·)
    let exponent := body.dropWhile (!isMark ·)
    let whole := mantissa.takeWhile (· != '.')
    let fraction := mantissa.dropWhile (· != '.')
    let wellFormed := (wholeDigits? whole).isSome &&
      (fraction.isEmpty || (digitRun? Char.isDigit (fraction.drop 1)).isSome) &&
      (exponent.isEmpty || isExponent (exponent.drop 1)) &&
      !(fraction.isEmpty && exponent.isEmpty)
    wellFormed && match Binary64.ofText? (String.ofList (s.filter (· != '_'))) with
      | some x => x.isFinite || x.isNegative
      | none => false

/-- A number of two digits, and what follows it. -/
def readTwo : Reader Nat
  | a :: b :: rest =>
    if a.isDigit && b.isDigit then some (digitsValue [a, b], rest) else none
  | _ => none

/-- What follows a given character. -/
def after? (c : Char) : List Char → Option (List Char)
  | d :: rest => if d = c then some rest else none
  | [] => none

/-- What follows a time of day. -/
def afterTime? (s : List Char) : Option (List Char) := do
  let (hour, s) ← readTwo s
  let (minute, s) ← readTwo (← after? ':' s)
  let (second, s) ← readTwo (← after? ':' s)
  if 23 < hour ∨ 59 < minute ∨ 60 < second then none
  else match s with
    | '.' :: rest =>
      let (ds, rest) := spanDigits rest
      if ds.isEmpty then none else some rest
    | s => some s

/-- What follows a date. -/
def afterDate? (s : List Char) : Option (List Char) := do
  let (century, s) ← readTwo s
  let (year, s) ← readTwo s
  let (month, s) ← readTwo (← after? '-' s)
  let (day, s) ← readTwo (← after? '-' s)
  let _ ← Date.of? (100 * century + year) month day
  return s

/-- Whether a text is the distance from universal time, or nothing. -/
def isOffset : List Char → Bool
  | [] | ['Z'] | ['z'] => true
  | c :: rest =>
    (c = '+' || c = '-') && match readTwo rest with
      | some (hour, ':' :: rest) => match readTwo rest with
        | some (minute, []) => hour ≤ 23 && minute ≤ 59
        | _ => false
      | _ => false

/-- Whether a text is a date, a time, or both. -/
def isMoment (s : List Char) : Bool :=
  match afterDate? s with
  | some [] => true
  | some (c :: rest) =>
    (c = 'T' || c = 't' || c = ' ') && match afterTime? rest with
      | some rest => isOffset rest
      | none => false
  | none => afterTime? s == some []

/-- The words for the truth values. -/
def isTruth (s : List Char) : Bool := s = "true".toList || s = "false".toList

/-- The value of a word that is in no quotes or brackets. -/
def wordValue? (s : List Char) : Option Toml :=
  match integer? s with
  | some n => some (.integer n)
  | none => if isReal s || isTruth s || isMoment s then some .scalar else none

/-- Whether a character can stand in a word. -/
def isWordChar (c : Char) : Bool :=
  c.isAlphanum || c = '+' || c = '-' || c = '_' || c = '.' || c = ':'

/-- A word and what follows it. One blank can stand between a date and a time. -/
def spanWord (s : List Char) : List Char × List Char :=
  let word := s.takeWhile isWordChar
  let rest := s.dropWhile isWordChar
  match afterDate? word, rest with
  | some [], ' ' :: d :: more =>
    if d.isDigit then
      let time := (d :: more).takeWhile isWordChar
      (word ++ ' ' :: time, (d :: more).dropWhile isWordChar)
    else (word, rest)
  | _, _ => (word, rest)

/-- A value in no quotes or brackets. -/
def readWord (s : List Char) : Option (Toml × List Char) :=
  let (word, rest) := spanWord s
  (wordValue? word).map (·, rest)

end FileMarket.Toml
