import FileMarket.Proofs.Storage.Save

/-!
# Saves that overlap

Two saves in one directory whose steps come in any order. A save finds a name free well before it
moves its part file there, so both can be on the way to the same name (`Duet.Crossed`): then the one
that comes later replaces the file of the other, and a payload is lost (`crossed_payload_lost`).

Main statement: nothing else can go wrong. As long as the two have at no moment been on the way to
the same name, each save that has succeeded has its payload under a name of its own, also when both
write to the same part file (`kept_or_crossed`).
-/

set_option autoImplicit false

namespace FileMarket

namespace Save

/-- The name that a save has found free and is on its way to. -/
def aim? (save : Save) : Option String :=
  match save.state with
  | .writing target => some target
  | .moving target => some target
  | _ => none

/-- All names that are tested before a number are taken. -/
def TakenBefore (name : String) (number : Nat) (entries : Entries) : Prop :=
  ∀ earlier < number, entries.get? (candidate name earlier) ≠ none

/-- Where a save stands that no other has crossed, and what the entries hold for it: the name that it
is on its way to is free, the part file has its payload once it is written, and so has the name saved
under in the end. A part file can always be moved. -/
inductive Secured (name : String) (data : List UInt8) : SaveState → Entries → Prop
  | testing (number : Nat) {entries : Entries} (taken : TakenBefore name number entries) :
      Secured name data (.testing number) entries
  | writing (number : Nat) {entries : Entries} (taken : TakenBefore name number entries)
      (free : entries.test (candidate name number) = .ok false) :
      Secured name data (.writing (candidate name number)) entries
  | moving (number : Nat) {entries : Entries} (taken : TakenBefore name number entries)
      (free : entries.test (candidate name number) = .ok false)
      (short : Entries.tooLong (partName name) = false)
      (part : entries.get? (partName name) = some (.file data)) :
      Secured name data (.moving (candidate name number)) entries
  | saved {target : String} {entries : Entries} (harmless : Harmless target)
      (stored : entries.get? target = some (.file data)) :
      Secured name data (.done (.ok target)) entries
  | failed (fault : FileFault) (entries : Entries) : Secured name data (.done (.error fault)) entries

/-- The first name that is free is the same for all who look for it. -/
theorem TakenBefore.candidate_unique {name : String} {m n : Nat} {entries : Entries}
    (hm : TakenBefore name m entries) (hn : TakenBefore name n entries)
    (freem : entries.get? (candidate name m) = none)
    (freen : entries.get? (candidate name n) = none) : m = n := by
  rcases Nat.lt_trichotomy m n with hlt | heq | hlt
  · exact absurd freem (hn m hlt)
  · exact heq
  · exact absurd freen (hm n hlt)

namespace Secured

variable {save : Save} {entries : Entries} {target : String}

/-! ## Steps of its own -/

/-- A save on its way goes to the first free one of its names. -/
theorem of_aim? (h : Secured save.name save.data save.state entries)
    (haim : save.aim? = some target) :
    ∃ number, target = candidate save.name number ∧ TakenBefore save.name number entries ∧
      entries.get? target = none := by
  obtain ⟨name, data, state⟩ := save
  dsimp only at h ⊢
  cases h with
  | testing | saved | failed => cases haim
  | writing number taken free | moving number taken free =>
    obtain rfl := Option.some.inj haim
    exact ⟨number, rfl, taken, (Entries.test_eq_false_iff.1 free).2⟩

/-- A step of its own leaves a save secured: a name found taken is one more of those taken, and a
part file is moved to a name that is still free. -/
theorem step (harmless : Harmless save.name)
    (h : Secured save.name save.data save.state entries) :
    Secured save.name save.data (save.step entries).1.state (save.step entries).2 := by
  obtain ⟨name, data, state⟩ := save
  dsimp only at harmless h ⊢
  cases h with
  | testing number taken =>
    simp only [Save.step]
    cases htest : entries.test (candidate name number) with
    | error fault => exact .failed fault entries
    | ok found =>
      cases found with
      | false => exact .writing number taken htest
      | true =>
        apply Secured.testing
        intro earlier hearlier
        rcases Nat.lt_succ_iff_lt_or_eq.1 hearlier with hlt | rfl
        · exact taken earlier hlt
        · exact (Entries.test_eq_true_iff.1 htest).2
  | writing number taken free =>
    simp only [Save.step]
    cases hwrite : entries.write (partName name) data with
    | error fault => exact .failed fault entries
    | ok entries' =>
      have hget := Entries.get?_of_write hwrite
      -- no candidate is the part file, so what is known of the names stays true
      have hcandidate : ∀ n, entries'.get? (candidate name n) = entries.get? (candidate name n) := by
        intro n
        rw [hget, if_neg ((harmless.candidate n).ne_partName name)]
      refine .moving number ?_ ?_ (Entries.write_eq_ok_iff.1 hwrite).1 ?_
      · intro earlier hearlier
        rw [hcandidate]
        exact taken earlier hearlier
      · rw [Entries.test_eq_false_iff, hcandidate]
        exact Entries.test_eq_false_iff.1 free
      · rw [hget, if_pos rfl]
  | moving number taken free short part =>
    simp only [Save.step, Entries.rename_of_free part short free]
    apply Secured.saved (harmless.candidate number)
    rw [Entries.get?_put, if_pos rfl]
  | saved harmless stored => exact .saved harmless stored
  | failed fault => exact .failed fault entries

/-- A save that succeeds with a step has gone to a name that was free. -/
theorem free_of_step (h : Secured save.name save.data save.state entries)
    (running : save.result? = none)
    (hresult : (save.step entries).1.result? = some (.ok target)) : entries.get? target = none := by
  obtain ⟨name, data, state⟩ := save
  dsimp only at h
  cases h with
  | testing number =>
    simp only [Save.step] at hresult
    split at hresult
    all_goals cases hresult
  | writing number =>
    simp only [Save.step] at hresult
    split at hresult
    all_goals cases hresult
  | moving number taken free short part =>
    simp only [Save.step, Entries.rename_of_free part short free] at hresult
    cases hresult
    exact (Entries.test_eq_false_iff.1 free).2
  | saved | failed => cases running

/-- A save that has succeeded has its payload under the name it gives. -/
theorem stored_of_result? (h : Secured save.name save.data save.state entries)
    (hresult : save.result? = some (.ok target)) :
    entries.get? target = some (.file save.data) := by
  obtain ⟨name, data, state⟩ := save
  dsimp only at h
  cases h with
  | testing | writing | moving | failed => cases hresult
  | saved harmless stored =>
    cases hresult
    exact stored

end Secured

/-! ## Steps of the other -/

/-- A save touches the name of its part file and the name it is on its way to. -/
theorem get?_step_of_ne {save : Save} {x : String} (hpart : x ≠ partName save.name)
    (haim : save.aim? ≠ some x) (entries : Entries) :
    (save.step entries).2.get? x = entries.get? x := by
  obtain ⟨name, data, state⟩ := save
  cases state with
  | testing number =>
    simp only [step]
    split
    all_goals rfl
  | writing target =>
    simp only [step]
    split
    · rfl
    · rename_i hwrite
      rw [Entries.get?_of_write hwrite, if_neg hpart]
  | moving target =>
    have htarget : x ≠ target := fun heq => haim (congrArg some heq.symm)
    simp only [step]
    split
    · rfl
    · rename_i hrename
      obtain ⟨entry, -, hget⟩ := Entries.get?_of_rename hrename
      rw [hget, if_neg htarget, if_neg hpart]
  | removing fault => exact Entries.get?_remove_of_ne hpart
  | done result => rfl

namespace Secured

variable {save other : Save} {entries : Entries} {target : String}

/-- A save that is not on its way to a name changes nothing. -/
theorem step_entries_of_aim? (h : Secured save.name save.data save.state entries)
    (haim : save.aim? = none) : (save.step entries).2 = entries := by
  obtain ⟨name, data, state⟩ := save
  dsimp only at h
  cases h with
  | testing number =>
    simp only [Save.step]
    split
    all_goals rfl
  | writing | moving => cases haim
  | saved | failed => rfl

/-- What stands under a harmless name is left alone by any save that is secured. -/
theorem get?_step_of_taken (harmless : Harmless target)
    (h : Secured save.name save.data save.state entries) (taken : entries.get? target ≠ none) :
    (save.step entries).2.get? target = entries.get? target := by
  apply get?_step_of_ne (harmless.ne_partName save.name)
  intro haim
  obtain ⟨-, -, -, free⟩ := h.of_aim? haim
  exact taken free

/-- A step of another save leaves a save secured, unless the two are on the way to the same name. If
both have the same part file, then they are never on their way at once, for they look for the first
free one of the same names. -/
theorem step_other (harmless : Harmless save.name) (harmless' : Harmless other.name)
    (h : Secured save.name save.data save.state entries)
    (hother : Secured other.name other.data other.state entries)
    (apart : ∀ target, save.aim? = some target → other.aim? ≠ some target) :
    Secured save.name save.data save.state (other.step entries).2 := by
  have htaken : ∀ {number}, TakenBefore save.name number entries →
      TakenBefore save.name number (other.step entries).2 := by
    intro number taken earlier hearlier
    rw [get?_step_of_taken (harmless.candidate earlier) hother (taken earlier hearlier)]
    exact taken earlier hearlier
  have hfree : ∀ {number}, save.aim? = some (candidate save.name number) →
      entries.test (candidate save.name number) = .ok false →
      (other.step entries).2.test (candidate save.name number) = .ok false := by
    intro number haim free
    rw [Entries.test_eq_false_iff, get?_step_of_ne
      ((harmless.candidate number).ne_partName other.name) (apart _ haim)]
    exact Entries.test_eq_false_iff.1 free
  obtain ⟨name, data, state⟩ := save
  dsimp only at harmless h htaken hfree ⊢
  cases h with
  | testing number taken => exact .testing number (htaken taken)
  | writing number taken free => exact .writing number (htaken taken) (hfree rfl free)
  | moving number taken free short part =>
    refine .moving number (htaken taken) (hfree rfl free) short ?_
    cases haim : other.aim? with
    | none => rw [hother.step_entries_of_aim? haim, part]
    | some target =>
      obtain ⟨number', rfl, taken', free'⟩ := hother.of_aim? haim
      -- with one part file for both, the other would be on the way to the same name
      have hname : name ≠ other.name := by
        rintro rfl
        have hnumber := taken.candidate_unique taken' (Entries.test_eq_false_iff.1 free).2 free'
        exact apart _ rfl (hnumber ▸ haim)
      have haim' : other.aim? ≠ some (partName name) := by
        rw [haim]
        intro heq
        exact (harmless'.candidate number').ne_partName name (Option.some.inj heq)
      rw [get?_step_of_ne (fun heq => hname (partName_inj.1 heq)) haim', part]
  | saved hsaved stored =>
    apply Secured.saved hsaved
    rw [get?_step_of_taken hsaved hother (by rw [stored]; exact Option.some_ne_none _), stored]
  | failed fault => exact .failed fault _

end Secured

/-! ## Two saves that have not crossed -/

/-- Two saves that have at no moment been on the way to the same name: each of them is secured, and
they have not ended with the same name. -/
structure Apart (save other : Save) (entries : Entries) : Prop where
  harmless : Harmless save.name
  harmless' : Harmless other.name
  secured : Secured save.name save.data save.state entries
  secured' : Secured other.name other.data other.state entries
  ne : ∀ target, save.result? = some (.ok target) → other.result? ≠ some (.ok target)

namespace Apart

variable {save other : Save} {entries : Entries}

theorem symm (h : Apart save other entries) : Apart other save entries where
  harmless := h.harmless'
  harmless' := h.harmless
  secured := h.secured'
  secured' := h.secured
  ne target hother hsave := h.ne target hsave hother

/-- Two saves that begin. -/
theorem start (entries : Entries) (name name' : String) (data data' : List UInt8) :
    Apart (.start name data) (.start name' data') entries where
  harmless := harmless_safeName name
  harmless' := harmless_safeName name'
  secured := .testing 0 fun _ hearlier => absurd hearlier (Nat.not_lt_zero _)
  secured' := .testing 0 fun _ hearlier => absurd hearlier (Nat.not_lt_zero _)
  ne _ hresult := by cases hresult

/-- A step of one of the two, while they are not on the way to the same name. If it succeeds with
the step, it has gone to a name that was free, and the other has its payload under another name. -/
theorem step (h : Apart save other entries)
    (apart : ∀ target, save.aim? = some target → other.aim? ≠ some target) :
    Apart (save.step entries).1 other (save.step entries).2 := by
  have hsecured := h.secured.step h.harmless
  rw [← step_name save entries, ← step_data save entries] at hsecured
  refine ⟨?_, h.harmless', hsecured, ?_, ?_⟩
  · rw [step_name]
    exact h.harmless
  · apply h.secured'.step_other h.harmless' h.harmless h.secured
    intro target hother hsave
    exact apart target hsave hother
  · intro target hresult hother
    cases hrunning : save.result? with
    | some result =>
      rw [step_of_result? hrunning] at hresult
      exact h.ne target hresult hother
    | none =>
      have hfree := h.secured.free_of_step hrunning hresult
      have hstored := h.secured'.stored_of_result? hother
      rw [hstored] at hfree
      cases hfree

end Apart

end Save

/-! ## Runs -/

/-- Which of two saves takes a step. -/
inductive Side where
  | first
  | second

/-- Two saves in one directory. -/
structure Duet where
  first : Save
  second : Save
  entries : Entries

namespace Duet

/-- Two saves that begin. -/
def start (entries : Entries) (name name' : String) (data data' : List UInt8) : Duet :=
  ⟨.start name data, .start name' data', entries⟩

/-- One of the two takes a step. -/
def perform (duet : Duet) : Side → Duet
  | .first =>
    let (first, entries) := duet.first.step duet.entries
    ⟨first, duet.second, entries⟩
  | .second =>
    let (second, entries) := duet.second.step duet.entries
    ⟨duet.first, second, entries⟩

/-- The two saves after a run of steps, the latest one first. -/
def after (duet : Duet) : List Side → Duet
  | [] => duet
  | turn :: past => (duet.after past).perform turn

/-- Both saves are on the way to the same name, which each of them has found free, and none of them
has moved its part file there yet. -/
def Crossed (duet : Duet) : Prop :=
  ∃ target, duet.first.aim? = some target ∧ duet.second.aim? = some target ∧
    duet.entries.get? target = none

/-- The saves that have succeeded have their payloads under the names they gave, and these differ. -/
structure Kept (duet : Duet) (data data' : List UInt8) : Prop where
  first : ∀ target, duet.first.result? = some (.ok target) →
    duet.entries.get? target = some (.file data)
  second : ∀ target, duet.second.result? = some (.ok target) →
    duet.entries.get? target = some (.file data')
  ne : ∀ target target', duet.first.result? = some (.ok target) →
    duet.second.result? = some (.ok target') → target ≠ target'

theorem after_data (duet : Duet) (turns : List Side) :
    (duet.after turns).first.data = duet.first.data ∧
      (duet.after turns).second.data = duet.second.data := by
  induction turns with
  | nil => exact ⟨rfl, rfl⟩
  | cons turn past ih =>
    cases turn with
    | first => exact ⟨(Save.step_data _ _).trans ih.1, ih.2⟩
    | second => exact ⟨ih.1, (Save.step_data _ _).trans ih.2⟩

/-- Saves stay apart until they cross. -/
theorem apart_or_crossed {duet : Duet} (h : Save.Apart duet.first duet.second duet.entries)
    (turns : List Side) :
    Save.Apart (duet.after turns).first (duet.after turns).second (duet.after turns).entries ∨
      ∃ earlier, earlier <:+ turns ∧ (duet.after earlier).Crossed := by
  induction turns with
  | nil => exact Or.inl h
  | cons turn past ih =>
    rcases ih with hapart | ⟨earlier, hsuffix, hcrossed⟩
    · -- until the saves meet each of them is secured, so they meet at a name that is free
      by_cases hmeet : ∃ target, (duet.after past).first.aim? = some target ∧
          (duet.after past).second.aim? = some target
      · obtain ⟨target, hfirst, hsecond⟩ := hmeet
        obtain ⟨-, -, -, free⟩ := hapart.secured.of_aim? hfirst
        exact Or.inr ⟨past, List.suffix_cons turn past, target, hfirst, hsecond, free⟩
      · left
        cases turn with
        | first =>
          apply hapart.step
          intro target hfirst hsecond
          exact hmeet ⟨target, hfirst, hsecond⟩
        | second =>
          apply Save.Apart.symm
          apply hapart.symm.step
          intro target hsecond hfirst
          exact hmeet ⟨target, hfirst, hsecond⟩
    · exact Or.inr ⟨earlier, hsuffix.trans (List.suffix_cons turn past), hcrossed⟩

/-- Whatever is in the directory, whatever the names and the payloads are, and in whatever order the
steps of two saves come: the saves that have succeeded have their payloads under names of their own,
or at some moment both were on the way to one name that each had found free. -/
theorem kept_or_crossed (entries : Entries) (name name' : String) (data data' : List UInt8)
    (turns : List Side) :
    ((start entries name name' data data').after turns).Kept data data' ∨
      ∃ earlier, earlier <:+ turns ∧
        ((start entries name name' data data').after earlier).Crossed := by
  have hstart : Save.Apart (start entries name name' data data').first
      (start entries name name' data data').second entries := .start entries name name' data data'
  rcases apart_or_crossed hstart turns with hapart | hcrossed
  · left
    obtain ⟨hfirst, hsecond⟩ := after_data (start entries name name' data data') turns
    refine ⟨?_, ?_, ?_⟩
    · intro target hresult
      rw [hapart.secured.stored_of_result? hresult, hfirst]
      rfl
    · intro target hresult
      rw [hapart.secured'.stored_of_result? hresult, hsecond]
      rfl
    · intro target target' hresult hresult' heq
      exact hapart.ne target hresult (heq ▸ hresult')
  · exact Or.inr hcrossed

/-- The run in which a payload is lost. In the directory is one file. The first save finds its name
free, and so does the second with its first number. Both write their part files and move them there,
and the second takes the place of the first. -/
theorem crossed_payload_lost :
    let entries : Entries := [("a.txt", .file [0])]
    let turns : List Side := [.second, .second, .first, .second, .first, .second, .first]
    let duet := (start entries "a (1).txt" "a.txt" [1] [2]).after turns
    duet.first.result? = some (.ok "a (1).txt") ∧ duet.second.result? = some (.ok "a (1).txt") ∧
      listEntries "" duet.entries = [("a.txt", some [0]), ("a (1).txt", some [2])] ∧
      ¬ duet.Kept [1] [2] := by
  intro entries turns duet
  have hfirst : duet.first.result? = some (.ok "a (1).txt") := by decide +kernel
  have hsecond : duet.second.result? = some (.ok "a (1).txt") := by decide +kernel
  exact ⟨hfirst, hsecond, by decide +kernel, fun hkept => hkept.ne _ _ hfirst hsecond rfl⟩

/-- Both saves have the same name, and the second writes to the part file before the first moves it.
The first succeeds with the payload of the second, and the second fails. -/
example :
    let turns : List Side := [.second, .second, .first, .second, .first, .second, .first]
    let duet := (start [] "a.txt" "a.txt" [1] [2]).after turns
    duet.first.result? = some (.ok "a.txt") ∧
      duet.second.result? = some (.error .noSuchEntry) ∧
      duet.entries = [("a.txt", .file [2])] := ⟨rfl, rfl, rfl⟩

end Duet

end FileMarket
