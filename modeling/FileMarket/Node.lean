import FileMarket.Error
import FileMarket.Record
import FileMarket.Section

/-!
# The node

The calls that a marketplace node answers, and what each is answered with.
-/

namespace FileMarket

/-- What a provider sends for a purchase. -/
structure Payload where
  /-- The name that the provider gives the file. -/
  fileName : Option String
  contentType : Option String
  data : List UInt8
deriving DecidableEq

/-- A call to the node. -/
inductive Call where
  | list (target : Section)
  | add (target : Section) (record : FileRecord)
  | delete (target : Section) (hash : String)
  | findProviders (hash : String)
  | requestMetadata (peer hash : String)
  | download (peer hash : String) (price : Binary64)
  | wallet
deriving DecidableEq

namespace Call

/-- What a call gives when it succeeds. A change of a collection gives a notice, or
none. -/
@[reducible]
def Answer : Call → Type
  | .list _ => List FileRecord
  | .add _ _ | .delete _ _ => Option String
  | .findProviders _ => List String
  | .requestMetadata _ _ => FileRecord
  | .download _ _ _ => Payload
  | .wallet => Wallet

/-- Whether a call changes a collection. -/
def isMutation : Call → Bool
  | .add _ _ | .delete _ _ => true
  | _ => false

end Call

/-- A node with a state of its own: each call is answered and may change it. -/
abbrev Node (σ : Type) := (call : Call) → σ → Outcome call.Answer × σ

/-- A node that also keeps a list of the calls made, the first one first. -/
def Node.logged {σ : Type} (node : Node σ) : Node (σ × List Call) :=
  fun call (server, calls) =>
    let (answer, server) := node call server
    (answer, server, calls ++ [call])

end FileMarket
