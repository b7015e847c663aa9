/-!
# Failures of the market client

None of them is fatal: each belongs to the step that was refused or failed, and
the caller goes on with the state it had.
-/

namespace FileMarket

/-- A failure, with its particulars in words. -/
inductive MarketError where
  /-- Bad input, found before anything is sent. -/
  | validation (detail : String)
  /-- What was asked for is not there. -/
  | notFound (detail : String)
  /-- A call to the node failed; the step can be tried again. -/
  | transport (detail : String)
  /-- A payload could not be written. -/
  | storage (detail : String)
  /-- An operation of the same kind is still running. -/
  | busy (what : String)
  /-- The operation is not offered in the present state, section or selection. -/
  | unavailable (detail : String)
deriving DecidableEq, Repr

/-- The outcome of an operation that can fail. -/
abbrev Outcome := Except MarketError

namespace MarketError

/-- The text shown to the user. -/
def message : MarketError → String
  | .validation detail => detail
  | .notFound detail => detail
  | .transport detail => "request failed: " ++ detail
  | .storage detail => "could not save file: " ++ detail
  | .busy what => what ++ " is already in progress"
  | .unavailable detail => detail

/-- Whether the failure is that of a call to the node. -/
def isTransport : MarketError → Bool
  | .transport _ => true
  | _ => false

end MarketError

/-- What became of an answer that was offered to the state it was asked for. -/
inductive Reception where
  | accepted
  /-- The question was superseded or withdrawn; nothing changed. -/
  | stale
deriving DecidableEq, Repr

end FileMarket
