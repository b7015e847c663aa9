import FileMarket.Error
import FileMarket.Text.Ascii
import FileMarket.Text.Blank

/-!
# Sections

The named file collections that the node keeps for its user.
-/

namespace FileMarket

open Text

/-- A file collection. Purchased files are the node's download history. -/
inductive Section where
  | hosting
  | storing
  | sharing
  | explore
  | saved
  | purchased
deriving DecidableEq, Repr

namespace Section

/-- The sections in the order in which they are shown. -/
def all : List Section := [.hosting, .storing, .sharing, .explore, .saved, .purchased]

/-- The name of a section. -/
def label : Section → String
  | .hosting => "Hosting"
  | .storing => "Storing"
  | .sharing => "Sharing"
  | .explore => "Explore"
  | .saved => "Saved"
  | .purchased => "Purchased"

/-- The path of a section's listing on the node. -/
def path : Section → String
  | .hosting => "hosting"
  | .storing => "storing"
  | .sharing => "sharing"
  | .explore => "explore"
  | .saved => "saved"
  | .purchased => "downloads"

/-- Whether files can be added to a section and deleted from it. -/
def isMutable : Section → Bool
  | .hosting | .storing | .sharing | .saved => true
  | .explore | .purchased => false

/-- The section with a given name or path, up to case and outer blanks. -/
def parse (text : String) : Outcome Section :=
  let text := trim text
  match all.find? fun s => sameAscii s.label text || sameAscii s.path text with
  | some s => .ok s
  | none => .error (.validation ("unknown section: " ++ text))

end Section

end FileMarket
