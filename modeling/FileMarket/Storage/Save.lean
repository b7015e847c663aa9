import FileMarket.Error
import FileMarket.Storage.Directory
import FileMarket.Storage.FileName

/-!
# Saving payloads

A payload is saved in single steps of the file system: tests of names until a
free one is found, the writing of a part file, and its renaming. Other saves may
come between the steps. An existing file is never chosen; the name gets a number
instead.

Each step brings a save nearer to its end, or leaves the entries as they are and
strikes out one of them as tested (`Save.step_nearer`).
-/

namespace FileMarket

/-- Where a save stands: testing the plain name or a numbered one, writing the part
file for a name found free, renaming it, taking away a part file that could not be
renamed, or done. -/
inductive SaveState where
  | testing (number : Nat)
  | writing (target : String)
  | moving (target : String)
  | removing (fault : FileFault)
  | done (result : Except FileFault String)

/-- A save under way: the safe name, the data, and where it stands. -/
structure Save where
  name : String
  data : List UInt8
  state : SaveState

namespace Save

/-- The save of a payload under a name that still has to be made safe. -/
def start (name : String) (data : List UInt8) : Save := ⟨safeName name, data, .testing 0⟩

/-- The name that is tested after a given number of others: first the plain name, then
the numbered ones. -/
def candidate (name : String) : Nat → String
  | 0 => name
  | n + 1 => numberedName name (n + 1)

/-- One step of a save, at once for all who look at the directory. -/
def step (save : Save) (entries : Entries) : Save × Entries :=
  match save.state with
  | .testing number =>
    let name := candidate save.name number
    match entries.test name with
    | .error fault => ({ save with state := .done (.error fault) }, entries)
    | .ok true => ({ save with state := .testing (number + 1) }, entries)
    | .ok false => ({ save with state := .writing name }, entries)
  | .writing target =>
    match entries.write (partName save.name) save.data with
    | .error fault => ({ save with state := .done (.error fault) }, entries)
    | .ok entries => ({ save with state := .moving target }, entries)
  | .moving target =>
    match entries.rename (partName save.name) target with
    | .error fault => ({ save with state := .removing fault }, entries)
    | .ok entries => ({ save with state := .done (.ok target) }, entries)
  | .removing fault =>
    ({ save with state := .done (.error fault) }, entries.remove (partName save.name))
  | .done _ => (save, entries)

/-- A number of steps with nothing in between. -/
def run : Nat → Save → Entries → Save × Entries
  | 0, save, entries => (save, entries)
  | n + 1, save, entries =>
    let (save, entries) := save.step entries
    run n save entries

/-- The name saved under, or why the save failed; none while it is under way. -/
def result? (save : Save) : Option (Except FileFault String) :=
  match save.state with
  | .done result => some result
  | _ => none

/-- A save that is done stays as it is and changes nothing. -/
theorem step_of_result? {save : Save} {result : Except FileFault String}
    (h : save.result? = some result) (entries : Entries) : save.step entries = (save, entries) := by
  unfold result? at h
  split at h
  · rename_i hstate
    simp only [step, hstate]
  · cases h

/-! ## How far a save is from its end -/

/-- The steps that a save still takes at most once no name is found taken any more. -/
def stage (save : Save) : Nat :=
  match save.state with
  | .testing _ => 4
  | .writing _ => 3
  | .moving _ => 2
  | .removing _ => 1
  | .done _ => 0

/-- The names that are tested before a number is. -/
def namesBefore (name : String) (number : Nat) : List String :=
  (List.range number).map (candidate name)

/-- The number of entries that a save, while it tests names, has not found yet. -/
def untested (save : Save) (entries : Entries) : Nat :=
  match save.state with
  | .testing number =>
    (entries.filter fun entry => !(namesBefore save.name number).contains entry.1).length
  | _ => 0

/-- No name is tested twice. -/
theorem candidate_inj {name : String} {m n : Nat} :
    candidate name m = candidate name n ↔ m = n := by
  cases m with
  | zero =>
    cases n with
    | zero => simp
    | succ n => simpa [candidate] using (numberedName_ne name (n + 1)).symm
  | succ m =>
    cases n with
    | zero => simpa [candidate] using numberedName_ne name (m + 1)
    | succ n => rw [candidate, candidate, numberedName_inj]

theorem mem_namesBefore {name x : String} {number : Nat} :
    x ∈ namesBefore name number ↔ ∃ earlier < number, candidate name earlier = x := by
  simp [namesBefore]

/-- A name that is found taken is struck out. -/
theorem untested_next_lt (save : Save) {entries : Entries} {number : Nat}
    (htesting : save.state = .testing number)
    (taken : entries.test (candidate save.name number) = .ok true) :
    untested { save with state := .testing (number + 1) } entries < untested save entries := by
  obtain ⟨entry, hmem, hname⟩ := Entries.exists_of_test taken
  have hnew : (fun entry : String × Entry =>
        !(namesBefore save.name (number + 1)).contains entry.1) =
      fun entry => (!(namesBefore save.name (number + 1)).contains entry.1) &&
        !(namesBefore save.name number).contains entry.1 := by
    funext entry
    cases hbefore : (namesBefore save.name number).contains entry.1 with
    | false => simp
    | true =>
      obtain ⟨earlier, hlt, heq⟩ := mem_namesBefore.1 (List.contains_iff_mem.1 hbefore)
      have hnext : entry.1 ∈ namesBefore save.name (number + 1) :=
        mem_namesBefore.2 ⟨earlier, Nat.lt_succ_of_lt hlt, heq⟩
      simp [hnext]
  simp only [untested, htesting]
  rw [hnew, ← List.filter_filter, List.length_filter_lt_length_iff_exists]
  refine ⟨entry, List.mem_filter.2 ⟨hmem, ?_⟩, ?_⟩
  · have hold : entry.1 ∉ namesBefore save.name number := by
      rw [mem_namesBefore, hname]
      rintro ⟨earlier, hlt, heq⟩
      exact absurd (candidate_inj.1 heq) (Nat.ne_of_lt hlt)
    simpa using hold
  · have hnext : entry.1 ∈ namesBefore save.name (number + 1) :=
      mem_namesBefore.2 ⟨number, Nat.lt_succ_self number, hname.symm⟩
    simpa using hnext

/-- A step brings a save nearer to its end, or it finds a name taken and changes no entry. -/
theorem step_nearer (save : Save) (entries : Entries) (running : save.result? = none) :
    (save.step entries).1.stage < save.stage ∨
      (save.step entries).2 = entries ∧ (save.step entries).1.stage = save.stage ∧
        (save.step entries).1.untested entries < save.untested entries := by
  cases hstate : save.state with
  | testing number =>
    simp only [step, hstate]
    cases htest : entries.test (candidate save.name number) with
    | error fault => exact Or.inl (by simp [stage, hstate])
    | ok taken =>
      cases taken with
      | false => exact Or.inl (by simp [stage, hstate])
      | true =>
        exact Or.inr ⟨rfl, by simp [stage, hstate], untested_next_lt save hstate htest⟩
  | writing target =>
    refine Or.inl ?_
    simp only [step, hstate]
    split <;> simp [stage, hstate]
  | moving target =>
    refine Or.inl ?_
    simp only [step, hstate]
    split <;> simp [stage, hstate]
  | removing fault => exact Or.inl (by simp [step, stage, hstate])
  | done result => simp [result?, hstate] at running

end Save

namespace Directory

/-- What a finished save has to say: the path of the file, or why there is none. -/
def answer (directory : Directory) : Except FileFault String → Outcome String
  | .ok name => .ok (directory.pathOf name)
  | .error fault => .error (.storage fault.message)

/-- Carries a save to its end with nothing in between. Each test but the last finds an
entry, which bounds their number. -/
def finish (directory : Directory) (save : Save) : Directory × Outcome String :=
  let (save, entries) := save.run (directory.entries.length + 4) directory.entries
  let result : Outcome String := match save.result? with
    | some result => directory.answer result
    | none => .error (.storage "")
  ({ directory with isMade := true, entries := entries }, result)

/-- Saves a payload with nothing in between, and gives the path of the file. -/
def save (directory : Directory) (name : String) (data : List UInt8) :
    Directory × Outcome String :=
  directory.finish (.start name data)

end Directory

end FileMarket
