import FileMarket.Calendar.Date
import FileMarket.Decimal.Reader
import FileMarket.Error
import FileMarket.FileKind
import FileMarket.Text.Ascii
import FileMarket.Text.Blank

/-!
# Filter buckets

The ranges that the filter controls offer. Each bucket has a tag, which a
control is set by, and a label, which it shows.
-/

namespace FileMarket

open Text

/-- The options of one filter control. -/
class Bucket (β : Type) where
  /-- The buckets in the order in which they are shown. -/
  all : List β
  tag : β → String
  label : β → String

/-- The bucket with a given tag, up to case and outer blanks. -/
def Bucket.parse (β : Type) [Bucket β] (text : String) : Outcome β :=
  let text := trim text
  match (Bucket.all : List β).find? fun b => sameAscii (Bucket.tag b) text with
  | some b => .ok b
  | none => .error (.validation ("unknown filter value: " ++ text))

instance : Bucket FileKind where
  all := [.document, .media, .other]
  tag
    | .document => "document"
    | .media => "media"
    | .other => "other"
  label := FileKind.label

/-- Sizes. The first two are thresholds of which the second contains the first;
`over1GB` starts at exactly one gigabyte. -/
inductive SizeBucket where
  | under1MB
  | under1GB
  | over1GB
deriving DecidableEq, Repr

instance : Bucket SizeBucket where
  all := [.under1MB, .under1GB, .over1GB]
  tag
    | .under1MB => "less1mb"
    | .under1GB => "less1gb"
    | .over1GB => "more1gb"
  label
    | .under1MB => "< 1 MB"
    | .under1GB => "< 1 GB"
    | .over1GB => "> 1 GB"

/-- Whether a number of bytes is in the bucket. -/
def SizeBucket.contains : SizeBucket → UInt64 → Bool
  | .under1MB, size => size < 1000000
  | .under1GB, size => size < 1000000000
  | .over1GB, size => 1000000000 ≤ size

/-- Windows of dates that are laid relative to the present day. -/
inductive DateBucket where
  | today
  | last7Days
  | last30Days
  | last6Months
  | thisYear
  | lastYear
deriving DecidableEq, Repr

instance : Bucket DateBucket where
  all := [.today, .last7Days, .last30Days, .last6Months, .thisYear, .lastYear]
  tag
    | .today => "today"
    | .last7Days => "7days"
    | .last30Days => "30days"
    | .last6Months => "6months"
    | .thisYear => "thisyear"
    | .lastYear => "lastyear"
  label
    | .today => "Today"
    | .last7Days => "Last 7 days"
    | .last30Days => "Last 30 days"
    | .last6Months => "Last 6 months"
    | .thisYear => "This year"
    | .lastYear => "Last year"

namespace DateBucket

/-- The first and the last day of a window. -/
def bounds (today : Date) : DateBucket → Date × Date
  | .today => (today, today)
  | .last7Days => (today.daysBack 7, today)
  | .last30Days => (today.daysBack 30, today)
  | .last6Months => (today.monthsBack 6, today)
  | .thisYear => (Date.startOf today.year, today)
  | .lastYear => (Date.startOf (today.year - 1), Date.endOf (today.year - 1))

/-- Whether a date is in the window. -/
def contains (bucket : DateBucket) (today date : Date) : Bool :=
  (bucket.bounds today).1.le date && date.le (bucket.bounds today).2

end DateBucket

/-- Prices. The middle bucket has both its ends. -/
inductive PriceBucket where
  | under5
  | from5To20
  | over20
deriving DecidableEq, Repr

instance : Bucket PriceBucket where
  all := [.under5, .from5To20, .over20]
  tag
    | .under5 => "less5"
    | .from5To20 => "5to20"
    | .over20 => "more20"
  label
    | .under5 => "< 5"
    | .from5To20 => "5 - 20"
    | .over20 => "> 20"

namespace PriceBucket

/-- The price 5. -/
def five : Binary64 := ⟨0x4014000000000000⟩

/-- The price 20. -/
def twenty : Binary64 := ⟨0x4034000000000000⟩

/-- Whether a price is in the bucket. A price that is no number is in none. -/
def contains : PriceBucket → Binary64 → Bool
  | .under5, price => price.lt five
  | .from5To20, price => five.le price && price.le twenty
  | .over20, price => twenty.lt price

end PriceBucket

/-- Download counts. The middle bucket has both its ends. -/
inductive DownloadsBucket where
  | under100
  | from100To1000
  | over1000
deriving DecidableEq, Repr

instance : Bucket DownloadsBucket where
  all := [.under100, .from100To1000, .over1000]
  tag
    | .under100 => "less100"
    | .from100To1000 => "100to1000"
    | .over1000 => "more1000"
  label
    | .under100 => "< 100"
    | .from100To1000 => "100 - 1000"
    | .over1000 => "> 1000"

/-- Whether a count is in the bucket. -/
def DownloadsBucket.contains : DownloadsBucket → UInt64 → Bool
  | .under100, n => n < 100
  | .from100To1000, n => 100 ≤ n && n ≤ 1000
  | .over1000, n => 1000 < n

end FileMarket
