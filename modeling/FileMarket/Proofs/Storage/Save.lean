import FileMarket.Proofs.Storage.Directory
import FileMarket.Proofs.Storage.FileName

/-!
# Saves with nothing in between

A save that has the directory to itself comes to its end within the steps that it is given
(`result?_run`), for every test but the last strikes out one of the entries. `Alone` says what the
entries are at each point of it: as they were while names are tested, with the part file before it is
moved, and in the end with the payload under a name that was free, or as they were.

Main statement: a save that succeeds adds its payload under a new name and takes away its part file;
one that fails changes nothing; and later saves leave the payload as it is (`save_adds_or_keeps`).
-/

set_option autoImplicit false

namespace FileMarket

/-- The entries once a payload is saved: its part file was written, whatever file stood there before,
and was moved to the target. -/
def Entries.saved (entries : Entries) (part target : String) (data : List UInt8) : Entries :=
  ((entries.put part (.file data)).erase part).put target (.file data)

/-- Under the target stands the payload, under the name of the part file nothing. -/
theorem Entries.get?_saved (entries : Entries) (part target : String) (data : List UInt8)
    (x : String) : (entries.saved part target data).get? x =
      if x = target then some (.file data) else if x = part then none else entries.get? x := by
  rw [saved, get?_put, get?_erase, get?_put]
  by_cases hpart : x = part
  · rw [if_pos hpart, if_pos hpart]
  · rw [if_neg hpart, if_neg hpart, if_neg hpart]

namespace Save

@[simp]
theorem start_name (name : String) (data : List UInt8) :
    (start name data).name = safeName name := rfl

@[simp]
theorem start_data (name : String) (data : List UInt8) : (start name data).data = data := rfl

/-! ## Coming to an end -/

/-- A step changes nothing of a save but where it stands. -/
theorem step_eq (save : Save) (entries : Entries) :
    (save.step entries).1 = { save with state := (save.step entries).1.state } := by
  obtain ⟨name, data, state⟩ := save
  cases state with
  | testing number =>
    simp only [step]
    split
    all_goals rfl
  | writing target =>
    simp only [step]
    split
    all_goals rfl
  | moving target =>
    simp only [step]
    split
    all_goals rfl
  | removing fault => rfl
  | done result => rfl

@[simp]
theorem step_name (save : Save) (entries : Entries) :
    (save.step entries).1.name = save.name := by rw [step_eq]

@[simp]
theorem step_data (save : Save) (entries : Entries) :
    (save.step entries).1.data = save.data := by rw [step_eq]

/-- Only a save that tests names has entries that it has not found yet. -/
theorem untested_of_stage_lt {save : Save} (h : save.stage < 4) (entries : Entries) :
    save.untested entries = 0 := by
  unfold stage at h
  unfold untested
  split at h
  · omega
  all_goals rename_i hstate; rw [hstate]

theorem stage_le (save : Save) : save.stage ≤ 4 := by
  unfold stage
  split
  all_goals omega

/-- The steps left of a save that is alone get fewer with each. -/
theorem step_left_lt {save : Save} (running : save.result? = none) (entries : Entries) :
    (save.step entries).1.stage + (save.step entries).1.untested (save.step entries).2 <
      save.stage + save.untested entries := by
  rcases save.step_nearer entries running with hstage | ⟨hentries, hstage, huntested⟩
  · have hle := save.stage_le
    rw [untested_of_stage_lt (by omega)]
    omega
  · rw [hentries, hstage]
    omega

theorem run_succ (n : Nat) (save : Save) (entries : Entries) :
    save.run (n + 1) entries = (save.step entries).1.run n (save.step entries).2 := rfl

theorem run_add (m n : Nat) (save : Save) (entries : Entries) :
    save.run (m + n) entries = (save.run m entries).1.run n (save.run m entries).2 := by
  induction m generalizing save entries with
  | zero => rw [Nat.zero_add, run]
  | succ m ih => rw [Nat.succ_add, run_succ, run_succ, ih]

theorem run_of_result? {save : Save} {result : Except FileFault String}
    (h : save.result? = some result) (n : Nat) (entries : Entries) :
    save.run n entries = (save, entries) := by
  induction n with
  | zero => rfl
  | succ n ih => rw [run_succ, step_of_result? h, ih]

/-- A save that has come to its end has done so once and for all. -/
theorem run_unique {save : Save} {entries : Entries} {m n : Nat}
    {result result' : Except FileFault String}
    (h : (save.run m entries).1.result? = some result)
    (h' : (save.run n entries).1.result? = some result') : save.run m entries = save.run n entries := by
  have hm : save.run (m + n) entries = save.run m entries := by
    rw [run_add, run_of_result? h]
  have hn : save.run (m + n) entries = save.run n entries := by
    rw [Nat.add_comm, run_add, run_of_result? h']
  rw [← hm, hn]

/-- A save has one result, however long it is run. -/
theorem result?_run_unique {save : Save} {entries : Entries} {m n : Nat}
    {result result' : Except FileFault String}
    (h : (save.run m entries).1.result? = some result)
    (h' : (save.run n entries).1.result? = some result') : result = result' := by
  rw [run_unique h h', h'] at h
  exact (Option.some.inj h).symm

/-- A save that is alone is done after as many steps as are left of it. -/
theorem result?_run {n : Nat} {save : Save} {entries : Entries}
    (h : save.stage + save.untested entries ≤ n) :
    ∃ result, (save.run n entries).1.result? = some result := by
  induction n generalizing save entries with
  | zero =>
    obtain ⟨name, data, state⟩ := save
    cases state with
    | done result => exact ⟨result, rfl⟩
    | testing | writing | moving | removing => simp [stage] at h
  | succ n ih =>
    cases hresult : save.result? with
    | some result => exact ⟨result, by rw [run_of_result? hresult, hresult]⟩
    | none =>
      have hless := step_left_lt hresult entries
      rw [run_succ]
      apply ih
      omega

/-- Carrying a save to its end takes no more steps than the directory allows for. -/
theorem exists_result?_run_length (save : Save) (entries : Entries) :
    ∃ result, (save.run (entries.length + 4) entries).1.result? = some result := by
  apply result?_run
  have hstage := save.stage_le
  have huntested : save.untested entries ≤ entries.length := by
    unfold untested
    split
    · exact List.length_filter_le _ _
    · exact Nat.zero_le _
  omega

/-! ## The entries during a save -/

/-- Where a save stands that is alone, and what has become of the entries it began with. -/
inductive Alone (name : String) (data : List UInt8) (before : Entries) : SaveState → Entries → Prop
  | testing (number : Nat) : Alone name data before (.testing number) before
  | writing (number : Nat) (free : before.test (candidate name number) = .ok false) :
      Alone name data before (.writing (candidate name number)) before
  | moving (number : Nat) (free : before.test (candidate name number) = .ok false)
      (short : Entries.tooLong (partName name) = false) :
      Alone name data before (.moving (candidate name number))
        (before.put (partName name) (.file data))
  | saved (number : Nat) (free : before.test (candidate name number) = .ok false) :
      Alone name data before (.done (.ok (candidate name number)))
        (before.saved (partName name) (candidate name number) data)
  | failed (fault : FileFault) : Alone name data before (.done (.error fault)) before

namespace Alone

variable {save : Save} {before entries : Entries}

/-- Each step goes on with what the one before has left. A part file that was written can be moved,
for the name found free is still free, and no part file stands under it. -/
theorem step (harmless : Harmless save.name)
    (h : Alone save.name save.data before save.state entries) :
    Alone save.name save.data before (save.step entries).1.state (save.step entries).2 := by
  obtain ⟨name, data, state⟩ := save
  dsimp only at harmless h ⊢
  cases h with
  | testing number =>
    simp only [Save.step]
    cases htest : before.test (candidate name number) with
    | error fault => exact .failed fault
    | ok taken =>
      cases taken with
      | true => exact .testing _
      | false => exact .writing number htest
  | writing number free =>
    simp only [Save.step]
    cases hwrite : before.write (partName name) data with
    | error fault => exact .failed fault
    | ok entries' =>
      obtain ⟨short, -, rfl⟩ := Entries.write_eq_ok_iff.1 hwrite
      exact .moving number free short
  | moving number free short =>
    obtain ⟨hlong, hfree⟩ := Entries.test_eq_false_iff.1 free
    have hne : candidate name number ≠ partName name := (harmless.candidate number).ne_partName name
    have hpart : (before.put (partName name) (.file data)).get? (partName name) =
        some (.file data) := by rw [Entries.get?_put, if_pos rfl]
    have htarget : (before.put (partName name) (.file data)).test (candidate name number) =
        .ok false := by
      rw [Entries.test_eq_false_iff, Entries.get?_put, if_neg hne]
      exact ⟨hlong, hfree⟩
    simp only [Save.step, Entries.rename_of_free hpart short htarget]
    exact .saved number free
  | saved number free => exact .saved number free
  | failed fault => exact .failed fault

theorem run (harmless : Harmless save.name)
    (h : Alone save.name save.data before save.state entries) (n : Nat) :
    Alone save.name save.data before (save.run n entries).1.state (save.run n entries).2 := by
  induction n generalizing save entries with
  | zero => exact h
  | succ n ih =>
    have hnext := h.step harmless
    have hrest := @ih (save.step entries).1 (save.step entries).2
    rw [step_name, step_data] at hrest
    exact hrest harmless hnext

/-- At no point of a save does another name than that of its part file and the one saved under get
or lose anything. -/
theorem get?_of_ne {name : String} {data : List UInt8} {state : SaveState}
    (h : Alone name data before state entries) {other : String} (hpart : other ≠ partName name)
    (htarget : ∀ target, state = .done (.ok target) → other ≠ target) :
    entries.get? other = before.get? other := by
  cases h with
  | testing | writing | failed => rfl
  | moving => rw [Entries.get?_put, if_neg hpart]
  | saved number free =>
    rw [Entries.get?_saved, if_neg (htarget _ rfl), if_neg hpart]

end Alone

/-- What becomes of a save that is alone and begins: its payload stands under a name that was free,
or nothing has changed. -/
theorem run_cases {save : Save} (harmless : Harmless save.name) (fresh : save.state = .testing 0)
    (entries : Entries) :
    (∃ number, entries.test (candidate save.name number) = .ok false ∧
      (save.run (entries.length + 4) entries).1.result? =
        some (.ok (candidate save.name number)) ∧
      (save.run (entries.length + 4) entries).2 =
        entries.saved (partName save.name) (candidate save.name number) save.data) ∨
    ∃ fault, (save.run (entries.length + 4) entries).1.result? = some (.error fault) ∧
      (save.run (entries.length + 4) entries).2 = entries := by
  obtain ⟨result, hresult⟩ := save.exists_result?_run_length entries
  have hbegin : Alone save.name save.data entries save.state entries := fresh ▸ .testing 0
  have halone := hbegin.run harmless (entries.length + 4)
  generalize save.run (entries.length + 4) entries = last at hresult halone ⊢
  obtain ⟨⟨name, data, state⟩, after⟩ := last
  dsimp only at halone hresult ⊢
  cases halone with
  | testing | writing | moving => cases hresult
  | saved number free => exact Or.inl ⟨number, free, rfl, rfl⟩
  | failed fault => exact Or.inr ⟨fault, rfl, rfl⟩

end Save

namespace Directory

/-! ## Whole saves -/

/-- All that the save of a payload can do to a directory: put the payload under a name that was
free, or nothing but see to it that the directory is there. -/
theorem save_cases (directory : Directory) (name : String) (data : List UInt8) :
    (∃ number, directory.entries.test (Save.candidate (safeName name) number) = .ok false ∧
      directory.save name data =
        ({ directory with
            isMade := true
            entries := directory.entries.saved (partName (safeName name))
              (Save.candidate (safeName name) number) data },
          .ok (directory.pathOf (Save.candidate (safeName name) number)))) ∨
    ∃ fault : FileFault, directory.save name data =
      ({ directory with isMade := true }, .error (.storage fault.message)) := by
  have hcases := Save.run_cases (Save.start_name name data ▸ harmless_safeName name)
    (rfl : (Save.start name data).state = .testing 0) directory.entries
  rw [Save.start_name, Save.start_data] at hcases
  rcases hcases with ⟨number, free, hresult, hentries⟩ | ⟨fault, hresult, hentries⟩
  · refine Or.inl ⟨number, free, ?_⟩
    simp only [save, finish, hresult, hentries, answer]
  · refine Or.inr ⟨fault, ?_⟩
    simp only [save, finish, hresult, hentries, answer]

variable {directory : Directory} {x : String} {entry : Entry}

/-- A save leaves what stands under a harmless name: its payload goes to a name that is free, and its
part file has no such name. -/
theorem get?_save_of_harmless (hx : Harmless x) (h : directory.entries.get? x = some entry)
    (name : String) (data : List UInt8) :
    (directory.save name data).1.entries.get? x = some entry := by
  rcases directory.save_cases name data with ⟨number, free, hsave⟩ | ⟨fault, hsave⟩
  · have htarget : x ≠ Save.candidate (safeName name) number := by
      rintro rfl
      rw [(Entries.test_eq_false_iff.1 free).2] at h
      cases h
    rw [hsave, Entries.get?_saved, if_neg htarget, if_neg (hx.ne_partName _), h]
  · rw [hsave, h]

/-- The directory after a run of saves, the latest one first. -/
def afterSaves (directory : Directory) : List (String × List UInt8) → Directory
  | [] => directory
  | (name, data) :: past => ((directory.afterSaves past).save name data).1

/-- What stands under a harmless name outlives any run of saves. -/
theorem get?_afterSaves_of_harmless (hx : Harmless x) (h : directory.entries.get? x = some entry)
    (run : List (String × List UInt8)) :
    (directory.afterSaves run).entries.get? x = some entry := by
  induction run with
  | nil => exact h
  | cons last past ih =>
    obtain ⟨name, data⟩ := last
    rw [afterSaves]
    exact get?_save_of_harmless hx ih name data

/-- A save that succeeds adds its payload under a name under which nothing stood. No part file is
left, under any further name stands what stood there before, and no later save loses the payload or
changes it. A save that fails leaves all entries as they were. -/
theorem save_adds_or_keeps (directory : Directory) (name : String) (data : List UInt8) :
    (∀ path, (directory.save name data).2 = .ok path →
      ∃ saved, path = directory.pathOf saved ∧ directory.entries.get? saved = none ∧
        (directory.save name data).1.entries.get? saved = some (.file data) ∧
        (directory.save name data).1.entries.get? (partName (safeName name)) = none ∧
        (∀ other, other ≠ saved → other ≠ partName (safeName name) →
          (directory.save name data).1.entries.get? other = directory.entries.get? other) ∧
        ∀ later, ((directory.save name data).1.afterSaves later).entries.get? saved =
          some (.file data)) ∧
    ∀ error, (directory.save name data).2 = .error error →
      (directory.save name data).1.entries = directory.entries := by
  rcases directory.save_cases name data with ⟨number, free, hsave⟩ | ⟨fault, hsave⟩
  · have hharmless := (harmless_safeName name).candidate number
    have hne := hharmless.ne_partName (safeName name)
    have hsaved : (directory.save name data).1.entries.get?
        (Save.candidate (safeName name) number) = some (.file data) := by
      rw [hsave, Entries.get?_saved, if_pos rfl]
    refine ⟨fun path hpath => ⟨Save.candidate (safeName name) number, ?_,
      (Entries.test_eq_false_iff.1 free).2, hsaved, ?_, ?_, ?_⟩, fun error herror => ?_⟩
    · rw [hsave] at hpath
      exact (Except.ok.inj hpath).symm
    · rw [hsave, Entries.get?_saved, if_neg hne.symm, if_pos rfl]
    · intro other htarget hpart
      rw [hsave, Entries.get?_saved, if_neg htarget, if_neg hpart]
    · exact get?_afterSaves_of_harmless hharmless hsaved
    · rw [hsave] at herror
      cases herror
  · refine ⟨fun path hpath => ?_, fun error herror => ?_⟩
    · rw [hsave] at hpath
      cases hpath
    · rw [hsave]

/-- Saving twice under one name, with a part file left over from before and a folder of another name
in the directory. -/
example : let directory : Directory := ⟨"dl", true, [(".a.txt.part", .file [0]), ("b", .folder [])]⟩
    (directory.afterSaves [("a.txt", [2]), ("../a.txt", [1])]).entries =
      [("b", .folder []), ("a.txt", .file [1]), ("a (1).txt", .file [2])] := rfl

end Directory

end FileMarket
