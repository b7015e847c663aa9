import FileMarket.Error
import FileMarket.Text.Ascii
import FileMarket.Text.Blank

/-!
# Sort specifications

The columns of a file table, and how a click on a column's header changes what
the table is sorted by.
-/

namespace FileMarket

open Text

/-- A column of a file table. -/
inductive Column where
  | name
  | extension
  | size
  | date
  | price
  | downloads
  | hash
deriving DecidableEq, Repr

namespace Column

/-- All columns. -/
def all : List Column := [.name, .extension, .size, .date, .price, .downloads, .hash]

/-- The word that stands for a column in requests. -/
def key : Column → String
  | .name => "name"
  | .extension => "extension"
  | .size => "size"
  | .date => "date"
  | .price => "price"
  | .downloads => "downloads"
  | .hash => "hash"

/-- The heading of a column. -/
def header : Column → String
  | .name => "Name"
  | .extension => "Type"
  | .size => "Size"
  | .date => "Date"
  | .price => "Price"
  | .downloads => "Downloads"
  | .hash => "Hash"

/-- The column with a given key or heading, up to case and outer blanks. -/
def parse (text : String) : Outcome Column :=
  let text := trim text
  match all.find? fun c => sameAscii c.key text || sameAscii c.header text with
  | some c => .ok c
  | none => .error (.validation ("unknown column: " ++ text))

end Column

/-- The direction of a sort. -/
inductive Direction where
  | ascending
  | descending
deriving DecidableEq, Repr

/-- The other direction. -/
def Direction.flip : Direction → Direction
  | .ascending => .descending
  | .descending => .ascending

/-- The column that a table is sorted by, and the direction. -/
structure SortSpec where
  column : Column
  direction : Direction
deriving DecidableEq, Repr

namespace SortSpec

/-- Ascending by a column. -/
def ascending (column : Column) : SortSpec := ⟨column, .ascending⟩

/-- Descending by a column. -/
def descending (column : Column) : SortSpec := ⟨column, .descending⟩

/-- After a click on a header: the active column changes direction, and any other
column becomes active, ascending. -/
def clicked (spec : SortSpec) (column : Column) : SortSpec :=
  if spec.column = column then ⟨column, spec.direction.flip⟩ else ascending column

end SortSpec

end FileMarket
