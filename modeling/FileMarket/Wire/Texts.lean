import FileMarket.Wire.Record

/-!
# Lists of texts and optional records on the wire
-/

namespace FileMarket.Wire

/-- The text that a document stands for. -/
def textOfDocument : Document → Except Fault String
  | .text (some s) => .ok s
  | _ => .error .malformed

/-- The texts that a document lists; null is the empty list. -/
def textsOfDocument (_depth : Nat) : Document → Except Fault (List String)
  | .null => .ok []
  | .array items closed => do
    let texts ← items.mapM textOfDocument
    if closed then return texts else .error .malformed
  | _ => .error .malformed

/-- The record that a document stands for; null is none. -/
def recordOfDocument? (depth : Nat) : Document → Except Fault (Option FileRecord)
  | .null => .ok none
  | document => (recordOfDocument depth document).map some

end FileMarket.Wire
