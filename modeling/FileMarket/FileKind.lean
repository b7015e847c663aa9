import FileMarket.FileKind.Table
import FileMarket.Text.Blank
import FileMarket.Text.CaseFold

/-!
# Kinds of files

A coarse classification of files by their extension or media type: documents,
media, and everything else.
-/

namespace FileMarket

open Text

/-- What a file is, roughly. -/
inductive FileKind where
  | document
  | media
  | other
deriving DecidableEq, Repr

namespace FileKind

/-- The name of a kind. -/
def label : FileKind → String
  | .document => "Document"
  | .media => "Media"
  | .other => "Other"

/-- Whether a lower-case media type is an image, sound or video. -/
def isMediaType (mime : List Char) : Bool :=
  ["image/", "audio/", "video/"].any fun top => top.toList.isPrefixOf mime

/-- Whether a lower-case media type outside the text and media types stands for
documents. A star matches every type or subtype. -/
def isDocumentType (mime : List Char) : Bool :=
  let top := mime.takeWhile (· != '/')
  match mime.dropWhile (· != '/') with
  | [] => false
  | _ :: subtype =>
    top == ['*'] ||
      (top == "application".toList &&
        (subtype == ['*'] || documentSubtypes.contains (foldCase (String.ofList subtype))))

/-- The kind of a lower-case media type; what follows a semicolon is a parameter. -/
def ofMime (text : List Char) : FileKind :=
  let mime := trimChars (text.takeWhile (· != ';'))
  if isMediaType mime then .media
  else if "text/".toList.isPrefixOf mime || isDocumentType mime then .document
  else .other

/-- The kind of a lower-case extension without its dot. -/
def ofExtension (ext : List Char) : FileKind :=
  if documentExtensions.contains (String.ofList ext) then .document
  else if mediaExtensions.contains (foldCase (String.ofList ext)) then .media
  else .other

/-- The kind of a file from `pdf`, `.pdf` or `application/pdf`, in any case and
with blanks around it; a blank value has none. -/
def of? (value : String) : Option FileKind :=
  let text := (trimChars value.toList).map Char.toLower
  if text.isEmpty then none
  else if text.contains '/' then some (ofMime text)
  else some (ofExtension (text.dropWhile (· == '.')))

end FileKind

end FileMarket
