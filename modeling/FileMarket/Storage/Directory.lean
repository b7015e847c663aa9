import FileMarket.Text.Ascii

/-!
# The download directory

A directory as a finite map from names to files and folders, with the file
operations that saving a payload is made of. There are no links. A name of more
than 255 bytes can be neither looked up nor written.
-/

namespace FileMarket

/-- What stands under a name. -/
inductive Entry where
  | file (data : List UInt8)
  | folder (content : List (String × Entry))
deriving Inhabited

/-- Why a file operation fails. -/
inductive FileFault where
  | noSuchEntry
  | notFolder
  | isFolder
  | nameTooLong
deriving DecidableEq, Repr

/-- The wording of a fault, with the number that the system gives it. -/
def FileFault.message : FileFault → String
  | .noSuchEntry => "No such file or directory (os error 2)"
  | .notFolder => "Not a directory (os error 20)"
  | .isFolder => "Is a directory (os error 21)"
  | .nameTooLong => "File name too long (os error 36)"

/-- The entries of a directory, at most one under each name. -/
abbrev Entries := List (String × Entry)

namespace Entries

/-- What stands under a name. -/
def get? (entries : Entries) (name : String) : Option Entry := entries.lookup name

/-- Puts an entry under a name, in place of any other. -/
def put (name : String) (entry : Entry) : Entries → Entries
  | [] => [(name, entry)]
  | (n, e) :: rest => if n = name then (name, entry) :: rest else (n, e) :: put name entry rest

/-- Takes away what stands under a name. -/
def erase (entries : Entries) (name : String) : Entries := entries.filter (·.1 ≠ name)

/-- Whether a name is too long for the file system. -/
def tooLong (name : String) : Bool := 255 < name.utf8ByteSize

/-- Whether something stands under a name. -/
def test (entries : Entries) (name : String) : Except FileFault Bool :=
  if tooLong name then .error .nameTooLong else .ok (entries.get? name).isSome

/-- A name is found taken only by an entry. -/
theorem exists_of_test {entries : Entries} {name : String} (h : entries.test name = .ok true) :
    ∃ entry ∈ entries, entry.1 = name := by
  unfold test at h
  split at h
  · cases h
  · obtain ⟨content, hfound⟩ := Option.isSome_iff_exists.1 (Except.ok.inj h)
    obtain ⟨early, late, rfl, -⟩ := List.lookup_eq_some_iff.1 hfound
    exact ⟨(name, content), by simp, rfl⟩

/-- Writes a file. An existing file loses its content; a folder is not replaced. -/
def write (entries : Entries) (name : String) (data : List UInt8) : Except FileFault Entries :=
  if tooLong name then .error .nameTooLong
  else match entries.get? name with
    | some (.folder _) => .error .isFolder
    | _ => .ok (entries.put name (.file data))

/-- Moves a file to another name, in place of any file there; a folder is not replaced. -/
def rename (entries : Entries) (source target : String) : Except FileFault Entries :=
  if tooLong source || tooLong target then .error .nameTooLong
  else match entries.get? source, entries.get? target with
    | none, _ => .error .noSuchEntry
    | some (.file _), some (.folder _) => .error .isFolder
    | some entry, _ => .ok ((entries.erase source).put target entry)

/-- Takes away the file under a name. A folder stays. -/
def remove (entries : Entries) (name : String) : Entries :=
  match entries.get? name with
  | some (.file _) => entries.erase name
  | _ => entries

/-- Makes a folder and the folders above it, by its path below the directory. -/
def makeFolder (entries : Entries) : List String → Except FileFault Entries
  | [] => .ok entries
  | name :: path =>
    if tooLong name then .error .nameTooLong
    else match entries.get? name with
      | some (.file _) => .error .notFolder
      | some (.folder content) => do
        return entries.put name (.folder (← makeFolder content path))
      | none => do
        return entries.put name (.folder (← makeFolder [] path))

/-- Writes a file by its path below the directory; the folders on the way must exist. -/
def writeAt (entries : Entries) (data : List UInt8) : List String → Except FileFault Entries
  | [] => .error .isFolder
  | [name] => entries.write name data
  | name :: path => match entries.get? name with
    | some (.folder content) => do
      return entries.put name (.folder (← writeAt content data path))
    | some (.file _) => .error .notFolder
    | none => .error .noSuchEntry

end Entries

mutual

/-- The paths of all entries below a directory, with the content of the files. -/
def listEntries (above : String) : Entries → List (String × Option (List UInt8))
  | [] => []
  | (name, entry) :: rest => listEntry (above ++ name) entry ++ listEntries above rest

/-- The paths of an entry and of all below it. -/
def listEntry (path : String) : Entry → List (String × Option (List UInt8))
  | .file data => [(path, some data)]
  | .folder content => (path, none) :: listEntries (path ++ "/") content

end

/-- The directory that downloads are written to: its path, whether it has been
made, and its entries. -/
structure Directory where
  path : String
  isMade : Bool
  entries : Entries

/-- The path of a name in a folder. -/
def joinPath (folder name : String) : String :=
  if folder.isEmpty || folder.endsWith "/" then folder ++ name else folder ++ "/" ++ name

namespace Directory

/-- A directory that has not been made. -/
def absent (path : String) : Directory := ⟨path, false, []⟩

/-- The path of a name in the directory. -/
def pathOf (directory : Directory) (name : String) : String := joinPath directory.path name

/-- Everything below the directory by its path from there, in the order of the paths. -/
def listing (directory : Directory) : List (String × Option (List UInt8)) :=
  (listEntries "" directory.entries).mergeSort fun a b => a.1 ≤ b.1

end Directory

end FileMarket
