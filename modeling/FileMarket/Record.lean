import FileMarket.Calendar.Date
import FileMarket.Decimal.Binary64
import FileMarket.FileKind

/-!
# File records, providers and wallets

What the node lists: files with the attributes it knows of them, the peers that
provide a file, and the balances of the user's wallet.
-/

namespace FileMarket

/-- A file as a section lists it. An attribute that the node does not give, or
gives in a form that cannot be read, is absent. -/
structure FileRecord where
  hash : String
  name : String
  extension : Option String
  size : Option UInt64
  date : Option Date
  price : Option Binary64
  downloads : Option UInt64
deriving DecidableEq, Inhabited

namespace FileRecord

/-- A record of which only hash and name are known. -/
def bare (hash name : String) : FileRecord := ⟨hash, name, none, none, none, none, none⟩

/-- The kind of the file, from its extension. -/
def kind? (record : FileRecord) : Option FileKind := record.extension.bind FileKind.of?

end FileRecord

/-- A peer that provides a file. Its price is known once its metadata has been fetched. -/
structure Provider where
  peer : String
  price : Option Binary64
deriving DecidableEq

/-- A provider whose price is not known yet. -/
def Provider.unpriced (peer : String) : Provider := ⟨peer, none⟩

/-- The user's wallet on the node. -/
structure Wallet where
  address : Option String
  current : Binary64
  pending : Binary64
deriving DecidableEq, Inhabited

end FileMarket
