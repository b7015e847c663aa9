import FileMarket.Desk.Drive
import FileMarket.Disposition
import FileMarket.Proofs.Storage.Save

/-!
# Downloads stay in the download directory

Whatever name the node gives a payload, and whatever the record is called, the payload is saved under
one harmless name directly in the download directory. On the way there the save writes to this name
and to the name of its part file only, and both are single components of a path, so nothing outside
the directory can be meant by them (`transfer_confined`).
-/

set_option autoImplicit false

namespace FileMarket

/-! ## Names that lead nowhere else -/

/-- A name that stands for one place in a directory and for nothing outside of it: it is not empty,
is neither of the two names with a meaning of their own, and has no character that divides a path or
is a control character. -/
structure Confined (name : String) : Prop where
  ne_empty : name ≠ ""
  ne_dot : name ≠ "."
  ne_dotdot : name ≠ ".."
  chars : ∀ c ∈ name.toList, c ≠ '/' ∧ c ≠ '\\' ∧ isControl c = false

theorem Harmless.confined {name : String} (h : Harmless name) : Confined name where
  ne_empty := h.ne_empty
  ne_dot := h.ne_dot
  ne_dotdot := h.ne_dotdot
  chars c hc := isNameChar_imp (h.chars c hc)

/-- A part file stays in the directory as well, though its name begins with a dot. -/
theorem Harmless.confined_partName {name : String} (h : Harmless name) :
    Confined (partName name) := by
  have hmem : 'p' ∈ (partName name).toList := by
    rw [partName, String.toList_append]
    exact List.mem_append_right _ (by decide)
  have hne : ∀ other : String, 'p' ∉ other.toList → partName name ≠ other := by
    rintro other hother rfl
    exact hother hmem
  exact ⟨hne "" (by decide), hne "." (by decide), hne ".." (by decide),
    fun c hc => isNameChar_imp (h.chars_partName c hc)⟩

/-! ## What a save touches -/

/-- Throughout a save, from its first step to its end and ever after, nothing changes under a name
that is not listed. -/
def Save.TouchesOnly (save : Save) (entries : Entries) (names : List String) : Prop :=
  ∀ n, ∀ other, other ∉ names → (save.run n entries).2.get? other = entries.get? other

/-- A save touches the name that it ends with and the one of its part file. -/
theorem Save.touchesOnly {save : Save} {entries : Entries} (harmless : Harmless save.name)
    (fresh : save.state = .testing 0) {m : Nat} {target : String}
    (h : (save.run m entries).1.result? = some (.ok target)) :
    save.TouchesOnly entries [target, partName save.name] := by
  intro n other hother
  have hbegin : Alone save.name save.data entries save.state entries := fresh ▸ .testing 0
  have hne : other ≠ target ∧ other ≠ partName save.name := by simpa using hother
  apply (hbegin.run harmless n).get?_of_ne hne.2
  intro target' hdone
  have hresult : (save.run n entries).1.result? = some (.ok target') := by
    rw [result?, hdone]
  rw [Except.ok.inj (result?_run_unique hresult h)]
  exact hne.1

/-- A path that a save gives is that of a name which it has tested, and the save has touched only
this name and that of the part file. -/
theorem Directory.touchesOnly_of_finish {directory : Directory} {save : Save}
    (harmless : Harmless save.name) (fresh : save.state = .testing 0) {path : String}
    (h : (directory.finish save).2 = .ok path) :
    ∃ number, path = directory.pathOf (Save.candidate save.name number) ∧
      save.TouchesOnly directory.entries
        [Save.candidate save.name number, partName save.name] := by
  rcases Save.run_cases harmless fresh directory.entries with
    ⟨number, -, hresult, -⟩ | ⟨fault, hresult, -⟩
  · refine ⟨number, ?_, Save.touchesOnly harmless fresh hresult⟩
    simp only [finish, hresult, answer] at h
    exact (Except.ok.inj h).symm
  · simp only [finish, hresult, answer] at h
    cases h

/-! ## Transfers -/

/-- A payload is saved under one harmless name in the download directory, whatever content
disposition it came with, whatever the record says, and whatever is in the directory. Nothing changes
at any time under a name other than this one and that of the part file, and neither name leads out of
the directory. -/
theorem transfer_confined (today : Date) (directory : Directory) (ticket : Ticket)
    (price : Binary64) (record : FileRecord) (disposition contentType : Option String)
    (data : List UInt8) (saved : SavedFile)
    (h : ((Arrival.start ticket price record
      ⟨disposition.bind dispositionFileName, contentType, data⟩).save today directory).1 =
        .ok saved) :
    let arrival := Arrival.start ticket price record
      ⟨disposition.bind dispositionFileName, contentType, data⟩
    ∃ name, saved.path = directory.pathOf name ∧ Harmless name ∧ Confined name ∧
      Confined (partName arrival.saving.name) ∧
      arrival.saving.TouchesOnly directory.entries [name, partName arrival.saving.name] ∧
      (arrival.save today directory).2.path = directory.path ∧
      ∀ other, other ≠ name → other ≠ partName arrival.saving.name →
        (arrival.save today directory).2.entries.get? other = directory.entries.get? other := by
  intro arrival
  change (arrival.save today directory).1 = .ok saved at h
  have hharmless : Harmless arrival.saving.name := harmless_safeName _
  have hfresh : arrival.saving.state = .testing 0 := rfl
  clear_value arrival
  obtain ⟨path, hfinish, hpath⟩ : ∃ path, (directory.finish arrival.saving).2 = .ok path ∧
      saved.path = path := by
    unfold Arrival.save at h
    cases hfinish : (directory.finish arrival.saving).2 with
    | error error =>
      simp only [hfinish] at h
      cases h
    | ok path =>
      simp only [hfinish] at h
      cases h
      exact ⟨path, rfl, rfl⟩
  obtain ⟨number, rfl, htouches⟩ := Directory.touchesOnly_of_finish hharmless hfresh hfinish
  refine ⟨_, hpath, hharmless.candidate number, (hharmless.candidate number).confined,
    hharmless.confined_partName, htouches, rfl, fun other hname hpart => ?_⟩
  exact htouches (directory.entries.length + 4) other (by simp [hname, hpart])

/-- A name that climbs out of the directory and has a null character in it, for a record with a name
that does the same. A file of this name is there already, and a part file was left over. -/
theorem climbing_transfer_confined :
    let directory : Directory :=
      ⟨"dl", true, [("x.sh", .file [0]), (".x.sh.part", .file [7]), ("y", .folder [])]⟩
    let disposition := "attachment; filename=../a; filename*=UTF-8''..%2F..%2Fx%00.sh"
    let arrival := Arrival.start ⟨1, 3, "abc123", some "p1"⟩ ⟨0⟩ (.bare "abc123" "../../b")
      ⟨(some disposition).bind dispositionFileName, none, [1, 2]⟩
    (arrival.save default directory).1 =
        .ok ⟨"dl/x (1).sh", arrival.purchased default⟩ ∧
      ∃ name, "dl/x (1).sh" = directory.pathOf name ∧ Harmless name ∧ Confined name ∧
        arrival.saving.TouchesOnly directory.entries [name, partName arrival.saving.name] := by
  intro directory disposition arrival
  have hsaved : (arrival.save default directory).1 =
      .ok ⟨"dl/x (1).sh", arrival.purchased default⟩ := by decide +kernel
  obtain ⟨name, hpath, hharmless, hconfined, -, htouches, -⟩ :=
    transfer_confined default directory _ _ _ (some disposition) none [1, 2] _ hsaved
  exact ⟨hsaved, name, hpath, hharmless, hconfined, htouches⟩

end FileMarket
