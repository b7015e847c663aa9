import FileMarket.Record
import FileMarket.Sort.Spec
import FileMarket.Text.NaturalOrder

/-!
# Sorting records

Records are sorted by one column. A record without a value in that column comes
last in both directions, and records with equal values keep their order.
-/

namespace FileMarket

open Text

/-- The value that a record is sorted by. -/
inductive SortKey where
  | count (n : UInt64)
  | amount (x : Binary64)
  | day (d : Date)
  | word (s : String)

namespace SortKey

/-- The order of two values of one column. -/
def compare : SortKey → SortKey → Ordering
  | .count m, .count n => Ord.compare m.toNat n.toNat
  | .amount x, .amount y => x.totalCompare y
  | .day d, .day e => d.compare e
  | .word s, .word t => naturalCompare s t
  | _, _ => .eq

/-- A text as a sort key; a blank text is none. -/
def ofText? (s : String) : Option SortKey := if allBlank s then none else some (.word s)

end SortKey

namespace FileRecord

/-- The value of a record in a column, if it has one. -/
def sortKey? (record : FileRecord) : Column → Option SortKey
  | .name => SortKey.ofText? record.name
  | .extension => record.extension.bind SortKey.ofText?
  | .hash => SortKey.ofText? record.hash
  | .size => record.size.map .count
  | .downloads => record.downloads.map .count
  | .price => record.price.map .amount
  | .date => record.date.map .day

end FileRecord

/-- An order or its reverse, by the direction. -/
def Direction.apply : Direction → Ordering → Ordering
  | .ascending, order => order
  | .descending, order => order.swap

namespace SortSpec

/-- The order of two optional sort keys: absent ones come last. -/
def compareKeys (direction : Direction) : Option SortKey → Option SortKey → Ordering
  | some a, some b => direction.apply (a.compare b)
  | some _, none => .lt
  | none, some _ => .gt
  | none, none => .eq

/-- The order of two records. -/
def compare (spec : SortSpec) (a b : FileRecord) : Ordering :=
  compareKeys spec.direction (a.sortKey? spec.column) (b.sortKey? spec.column)

/-- The records in order; records that compare equal keep their relative order. -/
def sort (spec : SortSpec) (records : List FileRecord) : List FileRecord :=
  records.mergeSort fun a b => (spec.compare a b).isLE

theorem sort_perm (spec : SortSpec) (records : List FileRecord) :
    (spec.sort records).Perm records :=
  List.mergeSort_perm records _

end SortSpec

end FileMarket
