/-!
# Octets as text

Reading octets as UTF-8. A sequence that breaks off or cannot be continued gives
one replacement character, and reading goes on at the octet that broke it.
-/

namespace FileMarket.Text

/-- The character written where octets are not UTF-8. -/
def replacement : Char := '\uFFFD'

/-- A character of which `owed` octets are still to come: its value so far, and
the range that the next octet must lie in. -/
structure OpenChar where
  owed : Nat
  value : Nat
  low : Nat
  high : Nat

/-- The octet `b` read between characters: a whole character, the first octet of
a longer one, or neither. -/
def startChar (b : Nat) : List Char × Option OpenChar :=
  if b < 0x80 then ([Char.ofNat b], none)
  else if b < 0xC2 then ([replacement], none)
  else if b < 0xE0 then ([], some ⟨1, b - 0xC0, 0x80, 0xBF⟩)
  else if b < 0xF0 then
    ([], some ⟨2, b - 0xE0, if b = 0xE0 then 0xA0 else 0x80, if b = 0xED then 0x9F else 0xBF⟩)
  else if b < 0xF5 then
    ([], some ⟨3, b - 0xF0, if b = 0xF0 then 0x90 else 0x80, if b = 0xF4 then 0x8F else 0xBF⟩)
  else ([replacement], none)

/-- One octet: the characters it completes, and the character it leaves open. -/
def readOctet : Option OpenChar → Nat → List Char × Option OpenChar
  | none, b => startChar b
  | some p, b =>
    if p.low ≤ b ∧ b ≤ p.high then
      let value := 64 * p.value + (b - 0x80)
      if p.owed ≤ 1 then ([Char.ofNat value], none)
      else ([], some ⟨p.owed - 1, value, 0x80, 0xBF⟩)
    else
      let (cs, next) := startChar b
      (replacement :: cs, next)

/-- The characters of an octet sequence after an open character. -/
def readOctets : Option OpenChar → List UInt8 → List Char
  | none, [] => []
  | some _, [] => [replacement]
  | p, b :: rest =>
    let (cs, next) := readOctet p b.toNat
    cs ++ readOctets next rest

/-- The text of an octet sequence. -/
def ofUtf8 (octets : List UInt8) : String := String.ofList (readOctets none octets)

/-- The octets of a text. -/
def toUtf8 (s : String) : List UInt8 := s.toUTF8.toList

/-- Whether an octet sequence is UTF-8 throughout. -/
def isUtf8 (octets : List UInt8) : Bool := octets.toByteArray.validateUTF8

/-- A text without the byte order mark at its start. -/
def withoutMark (s : String) : String :=
  match s.toList with
  | '\uFEFF' :: rest => String.ofList rest
  | _ => s

end FileMarket.Text
