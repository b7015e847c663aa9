import FileMarket.Proofs.Storage.Save

/-!
# The search for a free name

A payload is saved under the first of its names that is free: the name itself, then the name with
the numbers from one on. No entry is found twice on the way, so the search ends after one test more
than there are entries, at the latest (`exists_search`).

Main statement: a save tests the names in their order until one is free or too long, and what it
saves under is that name; the paths that any run of saves gives are pairwise different
(`saved_under_least`).
-/

set_option autoImplicit false

namespace FileMarket

/-! ## Numbered names -/

/-- The names that a payload is saved under, by their number: the name itself, and the name with a
number behind it or, where it has a dot, before the last one. -/
inductive NameVariant (name : String) : Nat → String → Prop where
  | itself : NameVariant name 0 name
  | undotted (n : Nat) (positive : 0 < n) (no_dot : '.' ∉ name.toList) :
      NameVariant name n (name ++ " (" ++ toString n ++ ")")
  | dotted (n : Nat) (positive : 0 < n) (stem ext : String) (parts : name = stem ++ "." ++ ext)
      (last_dot : '.' ∉ ext.toList) :
      NameVariant name n (stem ++ " (" ++ toString n ++ ")" ++ "." ++ ext)

/-- A name with a dot has a last one. -/
theorem exists_last_dot {name : List Char} (h : '.' ∈ name) :
    ∃ stem ext, name = stem ++ '.' :: ext ∧ '.' ∉ ext := by
  obtain ⟨front, back, hreverse, hback⟩ := List.eq_append_cons_of_mem (List.mem_reverse.2 h)
  refine ⟨back.reverse, front.reverse, ?_, by simpa using hback⟩
  rw [← List.reverse_inj, hreverse]
  simp

/-- The last dot divides a name, unless nothing stands before it. -/
theorem splitExtension_of_last_dot {stem ext : List Char} (hne : stem ≠ []) (hext : '.' ∉ ext) :
    splitExtension (stem ++ '.' :: ext) = (stem, some ext) := by
  have hbehind : ((stem ++ '.' :: ext).reverse.takeWhile (· != '.')).reverse = ext := by
    have hall : ∀ c ∈ ext.reverse, (c != '.') = true := by
      intro c hc
      exact bne_iff_ne.2 fun heq => hext (heq ▸ List.mem_reverse.1 hc)
    rw [List.reverse_append, List.reverse_cons, List.append_assoc,
      List.takeWhile_append_of_pos hall, List.singleton_append,
      List.takeWhile_cons_of_neg (by decide), List.append_nil, List.reverse_reverse]
  have hstem : (stem ++ '.' :: ext).take ((stem ++ '.' :: ext).length - ext.length - 1) = stem := by
    have hlength : (stem ++ '.' :: ext).length - ext.length - 1 = stem.length := by
      rw [List.length_append, List.length_cons]
      omega
    rw [hlength, List.take_left]
  unfold splitExtension
  rw [if_pos (by simp)]
  simp only [hbehind, hstem]
  rw [if_neg (by simpa using hne)]

theorem splitExtension_of_no_dot {name : List Char} (h : '.' ∉ name) :
    splitExtension name = (name, none) := by
  unfold splitExtension
  rw [if_neg (by simpa using h)]

namespace Save

/-- The names that are tested for a name without a dot at its start are its variants. -/
theorem nameVariant_candidate {name : String} (h : name.toList.head? ≠ some '.') (n : Nat) :
    NameVariant name n (candidate name n) := by
  cases n with
  | zero => exact .itself
  | succ n =>
    rw [candidate]
    unfold numberedName
    by_cases hdot : '.' ∈ name.toList
    · obtain ⟨stem, ext, hparts, hext⟩ := exists_last_dot hdot
      have hne : stem ≠ [] := by
        rintro rfl
        exact h (by rw [hparts]; rfl)
      have hname : name = String.ofList stem ++ "." ++ String.ofList ext := by
        rw [← String.toList_inj, hparts]
        simp
      rw [hparts, splitExtension_of_last_dot hne hext]
      have hvariant := NameVariant.dotted (n + 1) (Nat.succ_pos n) _ _ hname (by simpa using hext)
      simpa only [String.append_assoc] using hvariant
    · rw [splitExtension_of_no_dot hdot]
      have hvariant := NameVariant.undotted (n + 1) (Nat.succ_pos n) hdot
      simpa [String.append_assoc] using hvariant

/-! ## The search -/

variable {save : Save} {entries : Entries} {number : Nat}

/-- Names found taken are entries, and no two of them are the same one. -/
theorem untested_add_le
    (h : ∀ earlier < number, entries.test (candidate save.name earlier) = .ok true) :
    untested { save with state := .testing number } entries + number ≤ entries.length := by
  induction number with
  | zero => exact List.length_filter_le _ _
  | succ number ih =>
    have hbefore := ih fun earlier hlt => h earlier (Nat.lt_succ_of_lt hlt)
    have hless := untested_next_lt { save with state := .testing number } rfl
      (h number (Nat.lt_succ_self number))
    dsimp only at hless
    omega

/-- A save that finds names taken goes on testing, and changes no entry. -/
theorem run_testing (fresh : save.state = .testing 0)
    (h : ∀ earlier < number, entries.test (candidate save.name earlier) = .ok true) :
    save.run number entries = ({ save with state := .testing number }, entries) := by
  induction number with
  | zero => rw [← fresh, run]
  | succ number ih =>
    rw [run_add, ih fun earlier hlt => h earlier (Nat.lt_succ_of_lt hlt)]
    simp only [run, step, h number (Nat.lt_succ_self number)]

/-- How the search of a save goes that has a directory with these entries to itself: the names before
`number` are taken, and the test of the name with it is the last one. -/
structure Search (save : Save) (entries : Entries) (number : Nat) : Prop where
  /-- No more tests are made than one for each entry and the last one. -/
  bounded : number ≤ entries.length
  /-- The names that are tested are the variants of the save's name, in their order. -/
  named : ∀ n, NameVariant save.name n (candidate save.name n)
  tested : ∀ tests ≤ number,
    save.run tests entries = ({ save with state := .testing tests }, entries)
  taken : ∀ earlier < number, Entries.tooLong (candidate save.name earlier) = false ∧
    entries.get? (candidate save.name earlier) ≠ none
  /-- The name tested last is too long, or it is free and the save goes on with it. -/
  ended : Entries.tooLong (candidate save.name number) = true ∧
      save.run (number + 1) entries = ({ save with state := .done (.error .nameTooLong) }, entries) ∨
    Entries.tooLong (candidate save.name number) = false ∧
      entries.get? (candidate save.name number) = none ∧
      save.run (number + 1) entries =
        ({ save with state := .writing (candidate save.name number) }, entries)

/-- Every search ends: it cannot find more names taken than there are entries. -/
theorem exists_search (harmless : Harmless save.name) (fresh : save.state = .testing 0)
    (entries : Entries) : ∃ number, Search save entries number := by
  have hends : ∃ number, entries.test (candidate save.name number) ≠ .ok true := by
    by_contra hnone
    push Not at hnone
    have hle : untested { save with state := .testing (entries.length + 1) } entries +
        (entries.length + 1) ≤ entries.length := untested_add_le fun earlier _ => hnone earlier
    omega
  classical
  obtain ⟨hlast, htaken⟩ := (Nat.find_eq_iff hends).1 rfl
  generalize Nat.find hends = number at hlast htaken
  have htaken : ∀ earlier < number, entries.test (candidate save.name earlier) = .ok true :=
    fun earlier hlt => not_not.1 (htaken earlier hlt)
  have hrun := run_testing fresh htaken
  refine ⟨number, ?_, nameVariant_candidate harmless.head_ne_dot, ?_, ?_, ?_⟩
  · have hle := untested_add_le htaken
    omega
  · exact fun tests hle => run_testing fresh fun earlier hlt => htaken earlier (by omega)
  · exact fun earlier hlt => Entries.test_eq_true_iff.1 (htaken earlier hlt)
  · rw [run_add, hrun]
    simp only [run, step]
    cases htest : entries.test (candidate save.name number) with
    | error fault =>
      refine Or.inl ?_
      unfold Entries.test at htest
      split at htest
      · exact ⟨‹_›, by rw [← Except.error.inj htest]⟩
      · cases htest
    | ok found =>
      cases found with
      | true => exact absurd htest hlast
      | false =>
        obtain ⟨hshort, hfree⟩ := Entries.test_eq_false_iff.1 htest
        exact Or.inr ⟨hshort, hfree, rfl⟩

/-! ## What is saved under -/

/-- Where a save stands once it has settled on a name. -/
inductive HeadsFor (target : String) : SaveState → Prop where
  | writing : HeadsFor target (.writing target)
  | moving : HeadsFor target (.moving target)
  | removing (fault : FileFault) : HeadsFor target (.removing fault)
  | saved : HeadsFor target (.done (.ok target))
  | failed (fault : FileFault) : HeadsFor target (.done (.error fault))

variable {target : String}

theorem HeadsFor.step (h : HeadsFor target save.state) (entries : Entries) :
    HeadsFor target (save.step entries).1.state := by
  obtain ⟨name, data, state⟩ := save
  dsimp only at h
  cases h with
  | writing =>
    simp only [Save.step]
    split
    · exact .failed _
    · exact .moving
  | moving =>
    simp only [Save.step]
    split
    · exact .removing _
    · exact .saved
  | removing fault => exact .failed fault
  | saved => exact .saved
  | failed fault => exact .failed fault

theorem HeadsFor.run (h : HeadsFor target save.state) (n : Nat) (entries : Entries) :
    HeadsFor target (save.run n entries).1.state := by
  induction n generalizing save entries with
  | zero => exact h
  | succ n ih => exact ih (h.step entries) _

/-- A save that succeeds has saved under the name that its search ended with. -/
theorem Search.result_eq (h : Search save entries number) {n : Nat} (hn : entries.length < n)
    (hresult : (save.run n entries).1.result? = some (.ok target)) :
    target = candidate save.name number := by
  obtain ⟨rest, rfl⟩ : ∃ rest, n = number + 1 + rest := by
    have hle := h.bounded
    exact ⟨n - (number + 1), by omega⟩
  rw [run_add] at hresult
  rcases h.ended with ⟨-, hrun⟩ | ⟨-, -, hrun⟩
  · have hfailed : ({ save with state := .done (.error .nameTooLong) } : Save).result? =
        some (.error .nameTooLong) := rfl
    rw [hrun, run_of_result? hfailed, hfailed] at hresult
    cases hresult
  · rw [hrun] at hresult
    have hheads : HeadsFor (candidate save.name number)
        ({ save with state := .writing (candidate save.name number) } : Save).state := .writing
    have hlast := hheads.run rest entries
    unfold result? at hresult
    split at hresult
    · rename_i hstate
      rw [hstate, Option.some.inj hresult] at hlast
      cases hlast
      rfl
    · cases hresult

end Save

namespace Directory

variable {directory : Directory} {name path : String} {data : List UInt8}

/-- A save gives the path of the name that its search ended with. -/
theorem path_of_search {number : Nat}
    (h : Save.Search (Save.start name data) directory.entries number)
    (hpath : (directory.save name data).2 = .ok path) :
    path = directory.pathOf (Save.candidate (safeName name) number) := by
  obtain ⟨result, hresult⟩ :=
    (Save.start name data).exists_result?_run_length directory.entries
  simp only [save, finish, hresult] at hpath
  cases result with
  | error fault => cases hpath
  | ok target =>
    rw [h.result_eq (by omega) hresult] at hpath
    exact (Except.ok.inj hpath).symm

/-- A path that a save gives is that of a harmless name. Nothing stood under it before, and from
then on an entry does. -/
theorem added_of_save (hpath : (directory.save name data).2 = .ok path) :
    ∃ target, path = directory.pathOf target ∧ Harmless target ∧
      directory.entries.get? target = none ∧
      ∃ entry, (directory.save name data).1.entries.get? target = some entry := by
  rcases directory.save_cases name data with ⟨number, free, hsave⟩ | ⟨fault, hsave⟩
  · rw [hsave] at hpath
    refine ⟨_, (Except.ok.inj hpath).symm, (harmless_safeName name).candidate number,
      (Entries.test_eq_false_iff.1 free).2, .file data, ?_⟩
    rw [hsave, Entries.get?_saved, if_pos rfl]
  · rw [hsave] at hpath
    cases hpath

/-! ## Runs of saves -/

/-- The paths that a run of saves gives, the latest one first. -/
def savedPaths (directory : Directory) : List (String × List UInt8) → List String
  | [] => []
  | (name, data) :: past =>
    ((directory.afterSaves past).save name data).2.toOption.toList ++ directory.savedPaths past

theorem pathOf_inj (directory : Directory) {name name' : String} :
    directory.pathOf name = directory.pathOf name' ↔ name = name' := by
  unfold pathOf joinPath
  split
  all_goals rw [String.append_right_inj]

/-- No save moves the directory. -/
theorem pathOf_afterSaves (directory : Directory) (run : List (String × List UInt8)) (name : String) :
    (directory.afterSaves run).pathOf name = directory.pathOf name := by
  have hpath : (directory.afterSaves run).path = directory.path := by
    induction run with
    | nil => rfl
    | cons last past ih => rw [afterSaves, save, finish, ih]
  rw [pathOf, pathOf, hpath]

theorem mem_toList_save {path : String} :
    path ∈ (directory.save name data).2.toOption.toList ↔
      (directory.save name data).2 = .ok path := by
  cases (directory.save name data).2 with
  | error error => simp [Except.toOption]
  | ok result => simp [Except.toOption, eq_comm]

/-- Under every path that a run of saves has given stands an entry, and stays. -/
theorem exists_entry_of_mem_savedPaths {run : List (String × List UInt8)}
    (h : path ∈ directory.savedPaths run) :
    ∃ target entry, path = directory.pathOf target ∧ Harmless target ∧
      (directory.afterSaves run).entries.get? target = some entry := by
  induction run with
  | nil => cases h
  | cons last past ih =>
    obtain ⟨name, data⟩ := last
    rw [afterSaves]
    rcases List.mem_append.1 h with hnew | hmem
    · obtain ⟨target, hpath, hharmless, -, entry, hentry⟩ := added_of_save (mem_toList_save.1 hnew)
      rw [pathOf_afterSaves] at hpath
      exact ⟨target, entry, hpath, hharmless, hentry⟩
    · obtain ⟨target, entry, hpath, hharmless, hentry⟩ := ih hmem
      exact ⟨target, entry, hpath, hharmless, get?_save_of_harmless hharmless hentry name data⟩

/-- No two saves of a run give the same path: each finds the entries of the earlier ones. -/
theorem nodup_savedPaths (directory : Directory) (run : List (String × List UInt8)) :
    (directory.savedPaths run).Nodup := by
  induction run with
  | nil => exact List.nodup_nil
  | cons last past ih =>
    obtain ⟨name, data⟩ := last
    refine List.nodup_append.2 ⟨Option.toList_nodup _, ih, ?_⟩
    rintro new hnew old hold rfl
    obtain ⟨target, hpath, -, hfree, -⟩ := added_of_save (mem_toList_save.1 hnew)
    obtain ⟨earlier, entry, hearlier, -, hentry⟩ := exists_entry_of_mem_savedPaths hold
    rw [pathOf_afterSaves] at hpath
    rw [(pathOf_inj directory).1 (hpath.symm.trans hearlier), hentry] at hfree
    cases hfree

/-- Every save ends its search after one test more than there are entries, at the latest: at the
first of its names that is free, or at one that is too long. What it saves under is the name that it
ended with. The paths that any saves give one after the other are pairwise different. -/
theorem saved_under_least (directory : Directory) :
    (∀ name data, ∃ number,
      Save.Search (Save.start name data) directory.entries number ∧
      ∀ path, (directory.save name data).2 = .ok path →
        path = directory.pathOf (Save.candidate (safeName name) number)) ∧
    ∀ run, (directory.savedPaths run).Nodup := by
  refine ⟨fun name data => ?_, directory.nodup_savedPaths⟩
  have hharmless : Harmless (Save.start name data).name := harmless_safeName name
  obtain ⟨number, hsearch⟩ := Save.exists_search hharmless rfl directory.entries
  exact ⟨number, hsearch, fun path hpath => path_of_search hsearch hpath⟩

/-- Three saves of one name: the second and the third get numbers, and the third passes over a number
that is taken already. -/
example : (⟨"dl", true, [("a (2).txt", .folder [])]⟩ : Directory).savedPaths
    [("a.txt", [3]), ("a.txt", [2]), ("a.txt", [1])] =
      ["dl/a (3).txt", "dl/a (1).txt", "dl/a.txt"] := by decide +kernel

end Directory

end FileMarket
