import FileMarket.Grid.Basic
import FileMarket.Negotiation.Basic

/-!
# Tables of the command line

A section as a table of text columns, and the list of providers.
-/

namespace FileMarket.CommandLine

open FileMarket.Text

/-- The text of a record in a column. -/
def cell (record : FileRecord) : Column → String
  | .name => record.name
  | .extension => record.extension.getD missingText
  | .size => formatOptionalSize record.size
  | .date => (record.date.map Date.print).getD missingText
  | .price => (record.price.map formatAmount).getD missingText
  | .downloads => (record.downloads.map fun n => toString n.toNat).getD missingText
  | .hash => record.hash

/-- The heading of a column, marked when the table is sorted by it. -/
def heading (sort : SortSpec) (column : Column) : String :=
  if column ≠ sort.column then column.header
  else match sort.direction with
    | .ascending => column.header ++ " ^"
    | .descending => column.header ++ " v"

/-- The number of characters that each column needs. -/
def widths (header : List String) (rows : List (List String)) : List Nat :=
  rows.foldl (fun widths row => widths.zipWith (fun w s => max w s.length) row)
    (header.map String.length)

/-- A text filled up with blanks to a width. -/
def padTo (width : Nat) (s : String) : String :=
  s ++ String.ofList (List.replicate (width - s.length) ' ')

/-- The columns of one line, two blanks between them and none at the end. -/
def tableLine (widths : List Nat) (row : List String) : String :=
  trimEnd ("  ".intercalate (widths.zipWith padTo row))

/-- The visible rows of a grid below their headings, and the count of files. -/
def table (grid : Grid) (today : Date) : String :=
  let columns := grid.layout.columns ++ [.hash]
  let header := columns.map (heading grid.sort)
  let visible := grid.rows today
  let rows := visible.map fun record => columns.map (cell record)
  let lines := (header :: rows).map (tableLine (widths header rows))
  String.join (lines.map (· ++ "\n")) ++ toString visible.length ++ " of " ++
    toString grid.records.length ++ " files in " ++ grid.current.label

/-- The line for a provider with a given number. -/
def providerLine (provider : Provider) (number : Nat) : String :=
  "  [" ++ toString number ++ "] " ++ provider.peer ++ "  " ++
    (provider.price.map formatAmount).getD missingText ++ "\n"

/-- The numbered providers of a negotiation, a line for each. -/
def providerList (n : Negotiation) : String :=
  "Providers of " ++ n.hash ++ ":\n" ++
    String.join ((n.providers.zipIdx 1).map fun (provider, number) =>
      providerLine provider number)

end FileMarket.CommandLine
