import FileMarket.Text.Ascii
import FileMarket.Decimal.Notation
import FileMarket.Json.Value

/-!
# Writing JSON

The compact form: no blanks, quotes and backslashes escaped, control characters
by their short escape or by four hexadecimal digits, everything else as it is.
-/

namespace FileMarket

open Text

/-- Decimal text of a number. -/
def Number.print : Number → String
  | .unsigned n => toString n.toNat
  | .signed n => toString n.toInt
  | .real x => x.wireText

namespace Json

/-- One character inside quotes. -/
def escapeChar (c : Char) : List Char :=
  if c = '"' then ['\\', '"']
  else if c = '\\' then ['\\', '\\']
  else if c = '\n' then ['\\', 'n']
  else if c = '\r' then ['\\', 'r']
  else if c = '\t' then ['\\', 't']
  else if c = '\x08' then ['\\', 'b']
  else if c = '\x0c' then ['\\', 'f']
  else if c.toNat < 0x20 then '\\' :: 'u' :: hexPadded 4 c.toNat
  else [c]

/-- A text in quotes. -/
def quoted (s : String) : String :=
  String.ofList ('"' :: s.toList.flatMap escapeChar ++ ['"'])

mutual

/-- The compact text of a value. -/
def print : Json → String
  | .null => "null"
  | .bool b => if b then "true" else "false"
  | .number n => n.print
  | .text s => quoted s
  | .array items => "[" ++ ",".intercalate (printItems items) ++ "]"
  | .object fields => "\x7b" ++ ",".intercalate (printFields fields) ++ "\x7d"

/-- The compact texts of a list of values. -/
def printItems : List Json → List String
  | [] => []
  | item :: rest => print item :: printItems rest

/-- The compact texts of the pairs of an object. -/
def printFields : List (String × Json) → List String
  | [] => []
  | (key, value) :: rest => (quoted key ++ ":" ++ print value) :: printFields rest

end

end Json

end FileMarket
