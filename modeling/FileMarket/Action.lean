import FileMarket.Section

/-!
# Actions on selected files

What the toolbar offers for selected rows.
-/

namespace FileMarket

open Text

/-- An action on selected files. -/
inductive Action where
  | download
  | host
  | share
  | delete
  | info
deriving DecidableEq, Repr

namespace Action

/-- All actions. -/
def all : List Action := [.download, .host, .share, .delete, .info]

/-- The name of an action. -/
def label : Action → String
  | .download => "Download"
  | .host => "Host"
  | .share => "Share"
  | .delete => "Delete"
  | .info => "Info"

/-- Whether an action takes exactly one file. -/
def needsSingle : Action → Bool
  | .download | .info => true
  | _ => false

/-- Whether an action changes a collection on the node and is confirmed before. -/
def isMutation : Action → Bool
  | .host | .share | .delete => true
  | _ => false

/-- The action with a given name, up to case and outer blanks. -/
def parse (text : String) : Outcome Action :=
  match all.find? fun a => sameAscii a.label (trim text) with
  | some a => .ok a
  | none => .error (.validation ("unknown action: " ++ text))

end Action

end FileMarket
