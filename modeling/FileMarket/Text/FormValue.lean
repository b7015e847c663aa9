import FileMarket.Text.Ascii
import FileMarket.Text.Utf8

/-!
# Values of form fields

How the value of a field is written in the query of a URL: an ampersand ends it, a
plus sign is a blank, and a percent sign with two hexadecimal digits is an octet of
the UTF-8 form.
-/

namespace FileMarket.Text

/-- The value of an octet that is a hexadecimal digit. -/
def hexOctetValue? (octet : UInt8) : Option Nat := hexValue? (Char.ofNat octet.toNat)

/-- The octets that a text with percent escapes stands for. A percent sign without
two digits behind it stands for itself. -/
def percentDecode : List UInt8 → List UInt8
  | 0x25 :: high :: low :: rest =>
    match hexOctetValue? high, hexOctetValue? low with
    | some h, some l => UInt8.ofNat (16 * h + l) :: percentDecode rest
    | _, _ => 0x25 :: percentDecode (high :: low :: rest)
  | octet :: rest => octet :: percentDecode rest
  | [] => []

/-- A blank for a plus sign. -/
def plusToBlank (octet : UInt8) : UInt8 := if octet = 0x2B then 0x20 else octet

/-- The value of a field from its written form. -/
def formValue (written : String) : String :=
  ofUtf8 (percentDecode (((toUtf8 written).takeWhile (· != 0x26)).map plusToBlank))

end FileMarket.Text
