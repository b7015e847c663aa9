import FileMarket.Text.Ascii

/-!
# Case folding into ASCII

Full Unicode case folding, as far as its result is ASCII: the capitals, and the
few letters and ligatures that fold to small ASCII letters. Two texts of which
one is ASCII agree up to case exactly when these forms agree.
-/

namespace FileMarket.Text

/-- Characters beyond ASCII whose case folding is a text of small ASCII letters. -/
def asciiFoldings : List (Char × String) := [
  ('ß', "ss"), ('ſ', "s"), ('ẞ', "ss"), ('\u212A', "k"), ('ﬀ', "ff"), ('ﬁ', "fi"),
  ('ﬂ', "fl"), ('ﬃ', "ffi"), ('ﬄ', "ffl"), ('ﬅ', "st"), ('ﬆ', "st")]

/-- The folded form of one character; a character that folds to no ASCII text stays. -/
def foldChar (c : Char) : List Char :=
  if c.toNat < 0x80 then [c.toLower]
  else match asciiFoldings.lookup c with
    | some letters => letters.toList
    | none => [c]

/-- The folded form of a text. -/
def foldCase (s : String) : String := String.ofList (s.toList.flatMap foldChar)

end FileMarket.Text
