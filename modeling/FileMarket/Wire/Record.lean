import FileMarket.Json.Reader
import FileMarket.Record
import FileMarket.Wire.Fault
import FileMarket.Wire.Lenient

/-!
# Records on the wire

A record is an object, in which only the hash is required and unknown keys are
passed over, or an array of its attributes in a fixed order. Decoding goes
through the pairs in order and reports the first fault it meets.
-/

namespace FileMarket.Wire

/-- An attribute of a record. -/
inductive Field where
  | hash
  | name
  | extension
  | size
  | date
  | price
  | downloads
deriving DecidableEq, Repr

namespace Field

/-- The attributes in the order of the array form. -/
def all : List Field := [.hash, .name, .extension, .size, .date, .price, .downloads]

/-- The key that an attribute is written with. -/
def key : Field → String
  | .hash => "hash"
  | .name => "name"
  | .extension => "extension"
  | .size => "size"
  | .date => "date"
  | .price => "price"
  | .downloads => "downloads"

/-- The second key that some attributes are read from. -/
def alias? : Field → Option String
  | .name => some "file_name"
  | .size => some "file_size"
  | .price => some "file_price"
  | .downloads => some "download_times"
  | _ => none

/-- The attribute that a key names. -/
def ofKey? (key : String) : Option Field :=
  all.find? fun field => field.key == key || field.alias? == some key

end Field

/-- A record of which some attributes have been read. -/
structure RecordDraft where
  seen : List Field
  record : FileRecord

namespace RecordDraft

/-- Nothing read yet. -/
def empty : RecordDraft := ⟨[], .bare "" ""⟩

/-- Sets one attribute. Only a hash that is no text is a fault. -/
def set (draft : RecordDraft) (field : Field) (value : Json) : Except Fault RecordDraft :=
  let put (record : FileRecord) : Except Fault RecordDraft := .ok ⟨field :: draft.seen, record⟩
  match field, value with
  | .hash, .text s => put { draft.record with hash := s }
  | .hash, _ => .error .malformed
  | .name, value => put { draft.record with name := (text? value).getD "" }
  | .extension, value => put { draft.record with extension := text? value }
  | .size, value => put { draft.record with size := count? value }
  | .date, value => put { draft.record with date := date? value }
  | .price, value => put { draft.record with price := amount? value }
  | .downloads, value => put { draft.record with downloads := count? value }

/-- Takes one pair of an object. The value is absent where the text of the object
breaks off or the value cannot be given; an unknown key is passed over. -/
def take (draft : RecordDraft) (key : String) (value : Option Json) : Except Fault RecordDraft :=
  match Field.ofKey? key with
  | none => .ok draft
  | some field =>
    if field ∈ draft.seen then .error (.duplicate field.key)
    else match value with
      | none => .error .malformed
      | some value => draft.set field value

/-- The record, once its hash has been read. -/
def finish (draft : RecordDraft) : Except Fault FileRecord :=
  if .hash ∈ draft.seen then .ok draft.record else .error (.missing Field.hash.key)

end RecordDraft

/-- The record with the given attributes in the order of the array form. -/
def recordOfItems (items : List Json) : Except Fault FileRecord :=
  if items.isEmpty || Field.all.length < items.length then .error .malformed
  else do
    let draft ← (Field.all.zip items).foldlM (fun draft (field, value) => draft.set field value)
      RecordDraft.empty
    return draft.record

/-- The record that a value stands for. -/
def recordOfJson : Json → Except Fault FileRecord
  | .object fields => do
    let draft ← fields.foldlM (fun draft (key, value) => draft.take key (some value))
      RecordDraft.empty
    draft.finish
  | .array items => recordOfItems items
  | _ => .error .malformed

/-- The record that a document stands for, in which arrays and objects nest less
than `depth` deep. Pairs are taken up to the place where the text breaks off. -/
def recordOfDocument (depth : Nat) : Document → Except Fault FileRecord
  | .object fields closed => do
    let draft ← fields.foldlM (fun draft (key, item) => draft.take key (item.value? (depth - 1)))
      RecordDraft.empty
    if closed then draft.finish else .error .malformed
  | .array items closed =>
    match Document.values? (depth - 1) items, closed with
    | some values, true => recordOfItems values
    | _, _ => .error .malformed
  | _ => .error .malformed

/-- The records that a document lists; null is the empty list. -/
def recordsOfDocument (depth : Nat) : Document → Except Fault (List FileRecord)
  | .null => .ok []
  | .array items closed => do
    let records ← items.mapM (recordOfDocument (depth - 1))
    if closed then return records else .error .malformed
  | _ => .error .malformed

/-- The records that a value lists; null is the empty list. -/
def recordsOfJson : Json → Except Fault (List FileRecord)
  | .null => .ok []
  | .array items => items.mapM recordOfJson
  | _ => .error .malformed

/-- Reads a text as what a document stands for. A fault inside the document comes
before one behind it. -/
def readAs {α : Type} (decode : Nat → Document → Except Fault α) (s : String) : Except Fault α :=
  let (document, finished) := Document.read s
  match decode Document.maxDepth document with
  | .ok value => if finished then .ok value else .error .malformed
  | .error fault => .error fault

/-- A record as an object. Absent attributes are left out. -/
def recordToJson (record : FileRecord) : Json :=
  let optional {α : Type} (field : Field) (value : Option α) (json : α → Json) :=
    (value.map fun x => (field.key, json x)).toList
  .object
    ((Field.hash.key, .text record.hash) :: (Field.name.key, .text record.name) ::
      (optional .extension record.extension .text ++
        optional .size record.size (fun n => .number (.unsigned n)) ++
        optional .date record.date (fun d => .text d.print) ++
        optional .price record.price (fun x => .number (.real x)) ++
        optional .downloads record.downloads (fun n => .number (.unsigned n))))

end FileMarket.Wire
