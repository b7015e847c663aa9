import FileMarket.Action
import FileMarket.Decimal.Fixed
import FileMarket.Price
import FileMarket.Record

/-!
# Receipts

The summary shown before an action is committed, and the texts of amounts and
sizes in it.
-/

namespace FileMarket

/-- A text without the given character at its end. -/
def dropTrailing (c : Char) (s : List Char) : List Char := (s.reverse.dropWhile (· == c)).reverse

/-- The text of an amount: up to eight decimals, zeros at the end left out. -/
def formatAmount (x : Binary64) : String :=
  let text := dropTrailing '.' (dropTrailing '0' (x.fixedText 8).toList)
  if text = ['-', '0'] ∨ text = [] then "0" else String.ofList text

/-- One thousand, one million and one billion bytes. -/
def kilobyte : Binary64 := ⟨0x408F400000000000⟩

@[inherit_doc kilobyte]
def megabyte : Binary64 := ⟨0x412E848000000000⟩

@[inherit_doc kilobyte]
def gigabyte : Binary64 := ⟨0x41CDCD6500000000⟩

/-- The text of a size: bytes below one kilobyte, else the greatest decimal unit
that fits, with two decimals. -/
def formatSize (bytes : UInt64) : String :=
  let value := Binary64.ofCount bytes
  let inUnits (unit : Binary64) (name : String) := (value.div unit).fixedText 2 ++ name
  if gigabyte.le value then inUnits gigabyte " GB"
  else if megabyte.le value then inUnits megabyte " MB"
  else if kilobyte.le value then inUnits kilobyte " KB"
  else toString bytes.toNat ++ " B"

/-- What stands in place of an absent attribute. -/
def missingText : String := "——"

/-- The text of a size that may be absent. -/
def formatOptionalSize (bytes : Option UInt64) : String := (bytes.map formatSize).getD missingText

/-- The money side of a purchase. -/
structure Funds where
  balance : Binary64
  total : Binary64
  newBalance : Binary64
deriving DecidableEq

/-- What is about to happen, to which files. -/
structure Receipt where
  title : String
  action : Action
  files : List FileRecord
  /-- Present for purchases only. -/
  funds : Option Funds
deriving DecidableEq

namespace Receipt

/-- The receipt of a purchase that has passed the balance gate. -/
def purchase (gate : BalanceGate) (record : FileRecord) : Receipt where
  title := "Transaction Information"
  action := .download
  files := [record]
  funds := some ⟨gate.balance, gate.price, gate.newBalance⟩

/-- The title of a receipt for an action on several files. -/
def batchTitle : Action → String
  | .delete => "Delete these files?"
  | .host => "Host these files?"
  | .share => "Share these files?"
  | .download => "Transaction Information"
  | .info => "File Information"

/-- The receipt of an action on several files. -/
def batch (action : Action) (files : List FileRecord) : Receipt :=
  ⟨batchTitle action, action, files, none⟩

/-- The sum of the prices that are set; the sum of none is the negative zero. -/
def total (receipt : Receipt) : Binary64 :=
  (receipt.files.filterMap (·.price)).foldl Binary64.add .negativeZero

/-- The lines for one file. A deletion names only the file and its size. -/
def fileLines (action : Action) (file : FileRecord) : List String :=
  if action = .delete then ["  " ++ file.name ++ "  " ++ formatOptionalSize file.size]
  else
    ["File Name: " ++ file.name,
      "File Size: " ++ formatOptionalSize file.size,
      "File Extension: " ++ file.extension.getD missingText] ++
      (file.price.map fun price => "File Price: " ++ formatAmount price).toList

/-- The text of a receipt. Every line ends with a line break, except the last line
of a purchase. -/
def print (receipt : Receipt) : String :=
  let balance := (receipt.funds.map fun f => "Balance: " ++ formatAmount f.balance).toList
  let lines := receipt.title :: balance ++ receipt.files.flatMap (fileLines receipt.action)
  let close := match receipt.funds with
    | some f => "Price: " ++ formatAmount f.total ++ "\nNew Balance: " ++ formatAmount f.newBalance
    | none => ""
  String.join (lines.map (· ++ "\n")) ++ close

end Receipt

end FileMarket
