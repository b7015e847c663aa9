import FileMarket.Filter.Bucket
import FileMarket.Record

/-!
# Filter criteria

The settings of the filter controls. The criteria are independent and a record
must meet all that are set. A record that lacks the attribute a criterion looks
at is kept by that criterion.
-/

namespace FileMarket

open Text

/-- A filter control. -/
inductive FilterField where
  | type
  | size
  | date
  | price
  | downloads
deriving DecidableEq, Repr

namespace FilterField

/-- The controls in the order in which they are shown. -/
def all : List FilterField := [.type, .size, .date, .price, .downloads]

/-- The name of a control. -/
def label : FilterField → String
  | .type => "Type"
  | .size => "Size"
  | .date => "Date"
  | .price => "Price"
  | .downloads => "Downloads"

/-- Tags and labels of a control's options, in the order in which they are shown. -/
def options (field : FilterField) : List (String × String) :=
  let pairs (β : Type) [Bucket β] :=
    (Bucket.all : List β).map fun b => (Bucket.tag b, Bucket.label b)
  match field with
  | .type => pairs FileKind
  | .size => pairs SizeBucket
  | .date => pairs DateBucket
  | .price => pairs PriceBucket
  | .downloads => pairs DownloadsBucket

end FilterField

/-- The bucket that each control is set to, if any. -/
structure Criteria where
  kind : Option FileKind
  size : Option SizeBucket
  date : Option DateBucket
  price : Option PriceBucket
  downloads : Option DownloadsBucket
deriving DecidableEq, Repr

namespace Criteria

/-- No control set. -/
def none : Criteria := ⟨.none, .none, .none, .none, .none⟩

/-- Whether no control is set. -/
def isUnconstrained (criteria : Criteria) : Bool := criteria == none

/-- The setting that a control gets from a tag; a blank tag takes the constraint away. -/
def setting (β : Type) [Bucket β] (tag : String) : Outcome (Option β) :=
  if (trim tag).isEmpty then .ok .none else (Bucket.parse β (trim tag)).map some

/-- Sets one control by a tag. -/
def set (criteria : Criteria) (field : FilterField) (tag : String) : Outcome Criteria :=
  match field with
  | .type => (setting FileKind tag).map fun b => { criteria with kind := b }
  | .size => (setting SizeBucket tag).map fun b => { criteria with size := b }
  | .date => (setting DateBucket tag).map fun b => { criteria with date := b }
  | .price => (setting PriceBucket tag).map fun b => { criteria with price := b }
  | .downloads => (setting DownloadsBucket tag).map fun b => { criteria with downloads := b }

/-- The tag that a control is set to, empty when it is not set. -/
def tag (criteria : Criteria) : FilterField → String
  | .type => (criteria.kind.map Bucket.tag).getD ""
  | .size => (criteria.size.map Bucket.tag).getD ""
  | .date => (criteria.date.map Bucket.tag).getD ""
  | .price => (criteria.price.map Bucket.tag).getD ""
  | .downloads => (criteria.downloads.map Bucket.tag).getD ""

/-- The criteria of the given controls alone. -/
def retain (criteria : Criteria) (fields : List FilterField) : Criteria :=
  let keep {β : Type} (field : FilterField) (setting : Option β) :=
    if field ∈ fields then setting else .none
  ⟨keep .type criteria.kind, keep .size criteria.size, keep .date criteria.date,
    keep .price criteria.price, keep .downloads criteria.downloads⟩

/-- Whether a value meets a setting; an absent one of the two makes it so. -/
def passes {β α : Type} (test : β → α → Bool) : Option β → Option α → Bool
  | some bucket, some value => test bucket value
  | _, _ => true

/-- Whether a record meets all criteria on a given day. -/
def matchesRecord (criteria : Criteria) (today : Date) (record : FileRecord) : Bool :=
  passes (· == ·) criteria.kind record.kind? &&
    passes SizeBucket.contains criteria.size record.size &&
    passes (DateBucket.contains · today ·) criteria.date record.date &&
    passes PriceBucket.contains criteria.price record.price &&
    passes DownloadsBucket.contains criteria.downloads record.downloads

/-- The records that meet the criteria, in their order. -/
def apply (criteria : Criteria) (today : Date) (records : List FileRecord) : List FileRecord :=
  records.filter (criteria.matchesRecord today)

end Criteria

end FileMarket
