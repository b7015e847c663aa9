import FileMarket.Storage.Directory
import Mathlib.Tactic

/-!
# Laws of the file operations

What stands under each name after a file operation that succeeds, and when one succeeds. Writing a
file touches one name, moving a file touches two; what stands under any other name is as before.
-/

set_option autoImplicit false

namespace FileMarket.Entries

variable {entries entries' : Entries} {name source target x : String} {data : List UInt8}

/-! ## Single entries -/

@[simp]
theorem get?_cons (name : String) (entry : Entry) (rest : Entries) (x : String) :
    get? ((name, entry) :: rest) x = if x = name then some entry else get? rest x := by
  unfold get?
  by_cases h : x = name
  · rw [if_pos h, h, List.lookup_cons_self]
  · rw [if_neg h, List.lookup_cons, beq_eq_false_iff_ne.2 h]

theorem get?_put (entries : Entries) (name : String) (entry : Entry) (x : String) :
    (entries.put name entry).get? x = if x = name then some entry else entries.get? x := by
  induction entries with
  | nil => rw [put, get?_cons]
  | cons first rest ih =>
    obtain ⟨n, e⟩ := first
    rw [put]
    by_cases hn : n = name
    · rw [if_pos hn, get?_cons, get?_cons, hn]
      split
      · rfl
      · rfl
    · rw [if_neg hn, get?_cons, get?_cons, ih]
      by_cases hx : x = n
      · rw [if_pos hx, if_neg (hx ▸ hn), if_pos hx]
      · rw [if_neg hx, if_neg hx]

theorem get?_erase (entries : Entries) (name x : String) :
    (entries.erase name).get? x = if x = name then none else entries.get? x := by
  unfold erase
  induction entries with
  | nil =>
    split
    · rfl
    · rfl
  | cons first rest ih =>
    obtain ⟨n, e⟩ := first
    by_cases hn : n = name
    · rw [List.filter_cons_of_neg (by simpa using hn), ih, get?_cons, hn]
      split
      · rfl
      · rfl
    · rw [List.filter_cons_of_pos (by simpa using hn), get?_cons, get?_cons, ih]
      by_cases hx : x = n
      · rw [if_pos hx, if_pos hx, if_neg (hx ▸ hn)]
      · rw [if_neg hx, if_neg hx]

/-! ## File operations -/

/-- A name is found free if it is not too long and nothing stands under it. -/
theorem test_eq_false_iff :
    entries.test name = .ok false ↔ tooLong name = false ∧ entries.get? name = none := by
  unfold test
  cases hlong : tooLong name with
  | true => simp
  | false => simp

/-- A name is found taken if it is not too long and something stands under it. -/
theorem test_eq_true_iff :
    entries.test name = .ok true ↔ tooLong name = false ∧ entries.get? name ≠ none := by
  unfold test
  cases hlong : tooLong name with
  | true => simp
  | false => simp [Option.isSome_iff_ne_none]

theorem write_eq_ok_iff : entries.write name data = .ok entries' ↔
    tooLong name = false ∧ (∀ content, entries.get? name ≠ some (.folder content)) ∧
      entries' = entries.put name (.file data) := by
  unfold write
  cases hlong : tooLong name with
  | true => simp
  | false =>
    cases hget : entries.get? name with
    | none => simp [eq_comm]
    | some entry =>
      cases entry with
      | file old => simp [eq_comm]
      | folder content => simp

/-- A file that was written stands under its name. -/
theorem get?_of_write (h : entries.write name data = .ok entries') (x : String) :
    entries'.get? x = if x = name then some (.file data) else entries.get? x := by
  rw [(write_eq_ok_iff.1 h).2.2, get?_put]

/-- Moving an entry needs names that are not too long, an entry to move, and no folder in the way of
a file. -/
theorem rename_eq_ok (h : entries.rename source target = .ok entries') :
    tooLong source = false ∧ tooLong target = false ∧ ∃ entry, entries.get? source = some entry ∧
      entries' = (entries.erase source).put target entry := by
  unfold rename at h
  split at h
  · cases h
  · rename_i hlong
    have hlengths : tooLong source = false ∧ tooLong target = false := by simpa using hlong
    refine ⟨hlengths.1, hlengths.2, ?_⟩
    cases hsource : entries.get? source with
    | none =>
      rw [hsource] at h
      cases h
    | some entry =>
      refine ⟨entry, rfl, ?_⟩
      rw [hsource] at h
      split at h
      · cases h
      · cases h
      · rename_i hentry _
        obtain rfl := Option.some.inj hentry
        exact (Except.ok.inj h).symm

/-- What was moved stands under its new name, and nothing under the old one. -/
theorem get?_of_rename (h : entries.rename source target = .ok entries') :
    ∃ entry, entries.get? source = some entry ∧ ∀ x, entries'.get? x =
      if x = target then some entry else if x = source then none else entries.get? x := by
  obtain ⟨-, -, entry, hsource, rfl⟩ := rename_eq_ok h
  refine ⟨entry, hsource, fun x => ?_⟩
  rw [get?_put, get?_erase]

/-- A file can be moved to a name that is free. -/
theorem rename_of_free (hsource : entries.get? source = some (.file data))
    (hlong : tooLong source = false) (hfree : entries.test target = .ok false) :
    entries.rename source target = .ok ((entries.erase source).put target (.file data)) := by
  obtain ⟨hlong', htarget⟩ := test_eq_false_iff.1 hfree
  simp [rename, hlong, hlong', hsource, htarget]

/-- Taking a file away touches no other name. -/
theorem get?_remove_of_ne (hne : x ≠ name) : (entries.remove name).get? x = entries.get? x := by
  unfold remove
  split
  · rw [get?_erase, if_neg hne]
  · rfl

end FileMarket.Entries
