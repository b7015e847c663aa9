import FileMarket.Text.Utf8

/-!
# Percent escapes in URLs

Each part of a URL has characters of its own that are written as the percent escapes
of their UTF-8 octets. Control characters and all beyond ASCII always are.
-/

namespace FileMarket

open Text

/-- A part of a URL with an escape rule of its own. -/
inductive UrlPart where
  | userInfo
  | host
  | path
  /-- A path that is not divided into segments. -/
  | wholePath
  | query
  /-- A query of one of the schemes of the web. -/
  | webQuery
  | fragment
deriving DecidableEq, Repr

namespace UrlPart

/-- The printable ASCII characters that are escaped in a part. -/
def escaped : UrlPart → List Char
  | .userInfo => " \"<>`#?\x7b\x7d/:;=@[\\]^|".toList
  | .host => []
  | .path => " \"<>`#?\x7b\x7d".toList
  | .wholePath => []
  | .query => " \"#<>".toList
  | .webQuery => " \"#<>'".toList
  | .fragment => " \"<>`".toList

/-- Whether a character is escaped in a part. -/
def escapes (part : UrlPart) (c : Char) : Bool :=
  c.toNat < 0x20 || 0x7E < c.toNat || part.escaped.contains c

/-- An upper-case hexadecimal digit. -/
def upperHexDigit (n : Nat) : Char := Char.ofNat (if n < 10 then 0x30 + n else 0x37 + n)

/-- The escape of an octet. -/
def escapeOctet (octet : UInt8) : List Char :=
  ['%', upperHexDigit (octet.toNat / 16), upperHexDigit (octet.toNat % 16)]

/-- A text as it is written in a part. -/
def write (part : UrlPart) (s : List Char) : List Char :=
  s.flatMap fun c =>
    if part.escapes c then (toUtf8 (String.singleton c)).flatMap escapeOctet else [c]

end UrlPart

end FileMarket
