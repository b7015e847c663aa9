/-!
# Blank characters

The characters with the Unicode property `White_Space`, and texts with the
blanks cut off their ends.
-/

namespace FileMarket.Text

/-- White space of every script, the no-break spaces and line separators included. -/
def isBlank (c : Char) : Bool :=
  let n := c.toNat
  (9 ≤ n && n ≤ 13) || n == 0x20 || n == 0x85 || n == 0xA0 || n == 0x1680 ||
    (0x2000 ≤ n && n ≤ 0x200A) || n == 0x2028 || n == 0x2029 || n == 0x202F ||
    n == 0x205F || n == 0x3000

/-- The characters from the first that is not blank. -/
def trimStartChars (s : List Char) : List Char := s.dropWhile isBlank

/-- The characters up to the last that is not blank. -/
def trimEndChars (s : List Char) : List Char := (s.reverse.dropWhile isBlank).reverse

/-- The characters between the outer blanks. -/
def trimChars (s : List Char) : List Char := trimEndChars (trimStartChars s)

/-- A text without the blanks around it. -/
def trim (s : String) : String := String.ofList (trimChars s.toList)

/-- A text without the blanks at its end. -/
def trimEnd (s : String) : String := String.ofList (trimEndChars s.toList)

/-- Whether a text holds nothing but blanks. -/
def allBlank (s : String) : Bool := s.toList.all isBlank

theorem trim_toList (s : String) : (trim s).toList = trimChars s.toList :=
  String.toList_ofList

end FileMarket.Text
