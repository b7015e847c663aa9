/-!
# Selections

The hashes of the selected rows of a table, and the selection that the last use
of the header's check box replaced.
-/

namespace FileMarket

/-- A finite set of hashes, kept as an ascending list without repeats, so that
equal sets are equal values. -/
structure HashSet where
  toList : List String
  ascending : toList.Pairwise (· < ·)
deriving DecidableEq

namespace HashSet

/-- No hash. -/
def empty : HashSet := ⟨[], .nil⟩

/-- Puts a hash in its place in an ascending list. -/
def insertSorted (hash : String) : List String → List String
  | [] => [hash]
  | x :: xs =>
    if hash < x then hash :: x :: xs
    else if hash = x then x :: xs
    else x :: insertSorted hash xs

theorem mem_insertSorted {hash x : String} {xs : List String} :
    x ∈ insertSorted hash xs ↔ x = hash ∨ x ∈ xs := by
  induction xs with
  | nil => simp [insertSorted]
  | cons y ys ih =>
    rw [insertSorted]
    split
    · simp
    · split
      · rename_i h
        subst h
        simp
      · simp only [List.mem_cons, ih]
        constructor
        · rintro (h | h | h) <;> simp [h]
        · rintro (h | h | h) <;> simp [h]

theorem insertSorted_ascending {hash : String} {xs : List String} (h : xs.Pairwise (· < ·)) :
    (insertSorted hash xs).Pairwise (· < ·) := by
  induction xs with
  | nil => simp [insertSorted]
  | cons y ys ih =>
    rw [List.pairwise_cons] at h
    rw [insertSorted]
    split
    · rename_i hlt
      refine List.pairwise_cons.2 ⟨fun z hz => ?_, List.pairwise_cons.2 h⟩
      rcases List.mem_cons.1 hz with rfl | hz
      · exact hlt
      · exact String.lt_trans hlt (h.1 z hz)
    · split
      · exact List.pairwise_cons.2 h
      · rename_i hlt hne
        refine List.pairwise_cons.2 ⟨fun z hz => ?_, ih h.2⟩
        rcases mem_insertSorted.1 hz with rfl | hz
        · exact Std.lt_of_le_of_ne (String.not_lt.1 hlt) (Ne.symm hne)
        · exact h.1 z hz

/-- The set with a hash put in. -/
def insert (set : HashSet) (hash : String) : HashSet :=
  ⟨insertSorted hash set.toList, insertSorted_ascending set.ascending⟩

/-- The set with a hash taken out. -/
def erase (set : HashSet) (hash : String) : HashSet :=
  ⟨set.toList.filter (· ≠ hash), set.ascending.filter _⟩

/-- The set of the hashes in a list. -/
def ofList (hashes : List String) : HashSet := hashes.foldr (fun hash set => set.insert hash) empty

/-- Whether a hash is in the set. -/
def contains (set : HashSet) (hash : String) : Bool := set.toList.contains hash

/-- The number of hashes in the set. -/
def size (set : HashSet) : Nat := set.toList.length

/-- Whether the set holds no hash. -/
def isEmpty (set : HashSet) : Bool := set.toList.isEmpty

end HashSet

/-- The selected hashes, with the selection to go back to when the header's check
box is used again at once. -/
structure Selection where
  hashes : HashSet
  undo : Option HashSet
deriving DecidableEq

namespace Selection

/-- Nothing selected. -/
def empty : Selection := ⟨.empty, none⟩

/-- Whether a hash is selected. -/
def contains (selection : Selection) (hash : String) : Bool := selection.hashes.contains hash

/-- The number of selected hashes. -/
def size (selection : Selection) : Nat := selection.hashes.size

/-- Whether nothing is selected. -/
def isEmpty (selection : Selection) : Bool := selection.hashes.isEmpty

/-- The selected hash, when there is exactly one. -/
def single? (selection : Selection) : Option String :=
  match selection.hashes.toList with
  | [hash] => some hash
  | _ => none

/-- Selects a row or takes it out of the selection. -/
def toggle (selection : Selection) (hash : String) : Selection :=
  if selection.contains hash then ⟨selection.hashes.erase hash, none⟩
  else ⟨selection.hashes.insert hash, none⟩

/-- What the header's check box makes of a selection: exactly the visible rows, or
nothing when all of them are selected already. -/
def sweep (hashes : HashSet) (visible : List String) : HashSet :=
  if !visible.isEmpty && visible.all hashes.contains then .empty else .ofList visible

/-- The header's check box. A second use right after the first undoes it. -/
def toggleAll (selection : Selection) (visible : List String) : Selection :=
  match selection.undo with
  | some previous => ⟨previous, none⟩
  | none => ⟨sweep selection.hashes visible, some selection.hashes⟩

/-- The selection without the memory of the one before. -/
def settle (selection : Selection) : Selection := ⟨selection.hashes, none⟩

end Selection

end FileMarket
