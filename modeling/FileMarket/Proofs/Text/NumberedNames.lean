import FileMarket.Proofs.Text.Casing
import FileMarket.Proofs.Text.Digits
import FileMarket.Proofs.Text.NaturalOrder

/-!
# Numbers and letters in names

In the natural order a number inside a name counts by its value, however long it is written, and of
two spellings of one number the one with fewer leading zeros comes first. Digit runs are compared
without converting them, by their significant digits; these stand in the order of the numbers
(`compareRuns_eq`), and what stands before a number does not disturb it (`chunks_append`).

The case of ASCII letters does not matter against any other name (`chunks_map_toLower`), since names
with the same chunks are equal in lower case (`lowered_eq_chunks`).
-/

set_option autoImplicit false

namespace FileMarket.Text

/-! ## Digit runs -/

/-- The digits that are left without the zeros in front do not begin with a zero. -/
def Significant (ds : List Char) : Prop :=
  (∀ c ∈ ds, c.isDigit = true) ∧ ds.head? ≠ some '0'

theorem significant_dropWhile {ds : List Char} (h : ∀ c ∈ ds, c.isDigit = true) :
    Significant (ds.dropWhile (· == '0')) := by
  refine ⟨fun c hc => h c ((List.dropWhile_sublist _).mem hc), fun hhead => ?_⟩
  have hkept := List.head?_dropWhile_not (· == '0') ds
  rw [hhead] at hkept
  simp at hkept

/-- Of two numbers without zeros in front the one with fewer digits is smaller. -/
theorem Significant.value_lt {as bs : List Char} (ha : ∀ c ∈ as, c.isDigit = true)
    (hb : Significant bs) (h : as.length < bs.length) : digitsValue as < digitsValue bs := by
  obtain ⟨b, bs, rfl⟩ := List.exists_cons_of_length_pos (Nat.zero_lt_of_lt h)
  obtain ⟨hdigits, hhead⟩ := hb
  have hzero : b ≠ '0' := fun heq => hhead (congrArg some heq)
  calc digitsValue as < 10 ^ as.length := digitsValue_lt ha
    _ ≤ 10 ^ bs.length := Nat.pow_le_pow_right (by decide) (Nat.le_of_lt_succ h)
    _ ≤ digitsValue (b :: bs) := le_digitsValue_cons (hdigits b List.mem_cons_self) hzero bs

/-- Numbers without zeros in front are in the order of their lengths and then of their digits. -/
theorem compare_significant {as bs : List Char} (ha : Significant as) (hb : Significant bs) :
    (compare as.length bs.length).then (compare as bs) =
      compare (digitsValue as) (digitsValue bs) :=
  compare_then_eq (hb.value_lt ha.1) (ha.value_lt hb.1) (compare_digits_of_length_eq ha.1 hb.1)

/-- Digit runs are in the order of the numbers that they denote and then of their lengths. -/
theorem compareRuns_eq {as bs : List Char} (ha : ∀ c ∈ as, c.isDigit = true)
    (hb : ∀ c ∈ bs, c.isDigit = true) : compareRuns as bs =
      (compare (digitsValue as) (digitsValue bs)).then (compare as.length bs.length) := by
  have hsignificant := compare_significant (significant_dropWhile ha) (significant_dropWhile hb)
  rw [digitsValue_dropWhile_zero, digitsValue_dropWhile_zero] at hsignificant
  rw [← hsignificant, Ordering.then_assoc]
  rfl

/-- Runs without zeros in front that denote one number are the same. -/
theorem Significant.eq_of_value_eq {as bs : List Char} (ha : Significant as) (hb : Significant bs)
    (h : digitsValue as = digitsValue bs) : as = bs := by
  have hcompare := compare_significant ha hb
  rw [compare_eq_iff_eq.2 h] at hcompare
  exact Std.LawfulEqCmp.eq_of_compare (Ordering.then_eq_eq.1 hcompare).2

/-- A digit run that stands for a number in a name. -/
structure DigitRun where
  digits : List Char
  ne_nil : digits ≠ []
  isDigit : ∀ c ∈ digits, c.isDigit = true

namespace DigitRun

/-- The number that a digit run denotes. -/
def value (run : DigitRun) : Nat := digitsValue run.digits

/-- The number of zeros in front. -/
def leadingZeros (run : DigitRun) : Nat := (run.digits.takeWhile (· == '0')).length

/-- Of two runs that denote one number, the one with fewer zeros in front is shorter. -/
theorem length_lt_of_leadingZeros_lt {m n : DigitRun} (hvalue : m.value = n.value)
    (h : m.leadingZeros < n.leadingZeros) : m.digits.length < n.digits.length := by
  have hsame : m.digits.dropWhile (· == '0') = n.digits.dropWhile (· == '0') := by
    refine (significant_dropWhile m.isDigit).eq_of_value_eq (significant_dropWhile n.isDigit) ?_
    rw [digitsValue_dropWhile_zero, digitsValue_dropWhile_zero]
    exact hvalue
  have hlength : ∀ run : DigitRun, run.digits.length =
      run.leadingZeros + (run.digits.dropWhile (· == '0')).length := by
    intro run
    rw [leadingZeros, ← List.length_append, List.takeWhile_append_dropWhile]
  rw [hlength m, hlength n, hsame]
  exact Nat.add_lt_add_right h _

/-- The smaller number comes first, and of two spellings of a number the one with fewer zeros. -/
theorem compareRuns_eq_lt {m n : DigitRun} (h : m.value < n.value ∨
    m.value = n.value ∧ m.leadingZeros < n.leadingZeros) :
    compareRuns m.digits n.digits = .lt := by
  rw [compareRuns_eq m.isDigit n.isDigit]
  rcases h with hvalue | ⟨hvalue, hzeros⟩
  · rw [show compare (digitsValue m.digits) (digitsValue n.digits) = .lt from
      compare_lt_iff_lt.2 hvalue]
    rfl
  · rw [show compare (digitsValue m.digits) (digitsValue n.digits) = .eq from
      compare_eq_iff_eq.2 hvalue, Ordering.eq_then]
    exact compare_lt_iff_lt.2 (length_lt_of_leadingZeros_lt hvalue hzeros)

end DigitRun

/-! ## Numbers inside names -/

/-- A name that is cut behind a character that is no digit has the chunks of both parts. -/
theorem chunks_append {p : List Char} (h : ∀ c ∈ p.getLast?, c.isDigit = false) (s : List Char) :
    chunks (p ++ s) = chunks p ++ chunks s := by
  induction p with
  | nil => rfl
  | cons c p ih =>
    cases p with
    | nil =>
      have hc : ¬ c.isDigit = true := by simp [h c rfl]
      rw [List.singleton_append, chunks_cons_of_not_isDigit hc, chunks_cons_of_not_isDigit hc]
      rfl
    | cons d p =>
      have hrest := ih h
      have hne : chunks (d :: p) ≠ [] := by
        by_cases hd : d.isDigit = true
        · rw [chunks_cons_of_isDigit hd]
          exact List.cons_ne_nil _ _
        · rw [chunks_cons_of_not_isDigit hd]
          exact List.cons_ne_nil _ _
      rw [List.cons_append, chunks, chunks, hrest]
      cases hchunks : chunks (d :: p) with
      | nil => exact absurd hchunks hne
      | cons chunk more =>
        -- A digit joins the run behind it, which stands in the first part.
        cases chunk <;> split <;> rfl

theorem chunks_digits_append (run : DigitRun) {s : List Char}
    (h : ∀ c ∈ s.head?, c.isDigit = false) :
    chunks (run.digits ++ s) = .digits run.digits :: chunks s := by
  obtain ⟨digits, hne, hdigits⟩ := run
  obtain ⟨d, ds, rfl⟩ := List.exists_cons_of_ne_nil hne
  obtain ⟨hd, hds⟩ := List.forall_mem_cons.1 hdigits
  have htake : s.takeWhile Char.isDigit = [] := by
    cases s with
    | nil => rfl
    | cons c s => exact List.takeWhile_cons_of_neg (by simp [h c rfl])
  have hdrop : s.dropWhile Char.isDigit = s := by
    cases s with
    | nil => rfl
    | cons c s => exact List.dropWhile_cons_of_neg (by simp [h c rfl])
  show chunks (d :: (ds ++ s)) = _
  rw [chunks_cons_of_isDigit hd, List.takeWhile_append_of_pos hds, htake, List.append_nil,
    List.dropWhile_append_of_pos hds, hdrop]

theorem Chunk.compare_self (chunk : Chunk) : chunk.compare chunk = .eq := by
  have hlist : ∀ cs : List Char, Ord.compare cs cs = .eq := fun _ => Std.ReflCmp.compare_self
  cases chunk with
  | digits run =>
    show (Ord.compare _ _).then ((Ord.compare _ _).then (Ord.compare _ _)) = .eq
    rw [compare_eq_iff_eq.2 (rfl : run.length = run.length), hlist, Ordering.then_eq,
      Ordering.then_eq, compare_eq_iff_eq.2 rfl]
  | letter lower => exact hlist lower

/-- What is the same in front of two names makes no difference. -/
theorem compareLex_append (front as bs : List Chunk) :
    List.compareLex Chunk.compare (front ++ as) (front ++ bs) =
      List.compareLex Chunk.compare as bs := by
  induction front with
  | nil => rfl
  | cons chunk front ih =>
    rw [List.cons_append, List.cons_append, List.compareLex_cons_cons, chunk.compare_self, ih]
    rfl

theorem compareFolded_numbers {p s t : List Char} {m n : DigitRun}
    (hp : ∀ c ∈ p.getLast?, c.isDigit = false) (hs : ∀ c ∈ s.head?, c.isDigit = false)
    (ht : ∀ c ∈ t.head?, c.isDigit = false) (h : compareRuns m.digits n.digits = .lt) :
    compareFolded (p ++ (m.digits ++ s)) (p ++ (n.digits ++ t)) = .lt := by
  rw [compareFolded, chunks_append hp, chunks_append hp, chunks_digits_append m hs,
    chunks_digits_append n ht, compareLex_append, List.compareLex_cons_cons]
  show (compareRuns m.digits n.digits).then _ = .lt
  rw [h]
  rfl

/-! ## The case of letters -/

/-- A name with each character in lower case. -/
def lowered (s : List Char) : List Char := s.flatMap lowerChar

theorem not_isUpper_of_isDigit {c : Char} (h : c.isDigit = true) : ¬ c.isUpper = true := by
  intro hupper
  have hA := (isUpper_iff.1 hupper).1
  have h9 := (isDigit_iff.1 h).2
  omega

theorem isDigit_toLower (c : Char) : c.toLower.isDigit = c.isDigit := by
  rw [Bool.eq_iff_iff]
  refine ⟨isDigit_of_isDigit_toLower, fun h => ?_⟩
  rwa [Char.toLower_eq_of_not_isUpper (not_isUpper_of_isDigit h)]

/-- A small letter is its own lower-case form. -/
theorem lowerChar_toLower (c : Char) : lowerChar c.toLower = lowerChar c := by
  by_cases hupper : c.isUpper = true
  · have hrange := isUpper_iff.1 hupper
    have hsmall : c.toLower.toNat = c.toNat + 32 := by
      rw [Char.toLower_eq_of_isUpper hupper, Char.toNat_ofNat, if_pos (Or.inl (by omega))]
    have hlower : ¬ c.toLower.isUpper = true := fun h => by
      have hZ := (isUpper_iff.1 h).2
      omega
    rw [lowerChar, lowerChar, if_pos (by omega), if_pos (by omega),
      Char.toLower_eq_of_not_isUpper hlower]
  · rw [Char.toLower_eq_of_not_isUpper hupper]

/-- The chunks of a name do not depend on the case of its ASCII letters. -/
theorem chunks_map_toLower (s : List Char) : chunks (s.map Char.toLower) = chunks s := by
  induction s with
  | nil => rfl
  | cons c s ih =>
    rw [List.map_cons, chunks, chunks, ih, isDigit_toLower, lowerChar_toLower]
    by_cases hc : c.isDigit = true
    · rw [Char.toLower_eq_of_not_isUpper (not_isUpper_of_isDigit hc)]
    · rw [if_neg hc, if_neg hc]

theorem chunks_of_sameAscii {a b : String} (h : sameAscii a b = true) :
    chunks a.toList = chunks b.toList := by
  rw [← chunks_map_toLower a.toList, sameAscii_iff.1 h, chunks_map_toLower]

/-- The characters of a chunk. -/
def Chunk.text : Chunk → List Char
  | .digits run => run
  | .letter lower => lower

/-- The lower-case form of a name is that of its chunks. -/
theorem lowered_eq_chunks (s : List Char) : lowered s = (chunks s).flatMap Chunk.text := by
  induction s with
  | nil => rfl
  | cons c s ih =>
    have hcons : lowered (c :: s) = lowerChar c ++ lowered s := List.flatMap_cons
    rw [hcons, ih, chunks]
    by_cases hc : c.isDigit = true
    · -- A digit is its own lower-case form, and joins the run behind it if there is one.
      rw [if_pos hc, lowerChar_of_isDigit hc]
      split
      · rename_i run more hchunks
        rw [hchunks]
        rfl
      · rfl
    · rw [if_neg hc]
      rfl

/-- Runs that compare equal have the same digits, and as many zeros in front. -/
theorem eq_of_compareRuns {as bs : List Char} (h : compareRuns as bs = .eq) : as = bs := by
  obtain ⟨-, hrest⟩ := Ordering.then_eq_eq.1 h
  obtain ⟨hdigits, hlength⟩ := Ordering.then_eq_eq.1 hrest
  have hdigits : as.dropWhile (· == '0') = bs.dropWhile (· == '0') :=
    Std.LawfulEqCmp.eq_of_compare hdigits
  have hlength : as.length = bs.length := compare_eq_iff_eq.1 hlength
  have hzeros : ∀ cs : List Char,
      cs.takeWhile (· == '0') = List.replicate (cs.takeWhile (· == '0')).length '0' := fun cs =>
    List.eq_replicate_iff.2 ⟨rfl, fun c hc => by simpa using List.mem_takeWhile_imp hc⟩
  have hcount : (as.takeWhile (· == '0')).length = (bs.takeWhile (· == '0')).length := by
    rw [← List.takeWhile_append_dropWhile (p := (· == '0')) (l := as),
      ← List.takeWhile_append_dropWhile (p := (· == '0')) (l := bs), List.length_append,
      List.length_append, hdigits] at hlength
    exact Nat.add_right_cancel hlength
  rw [← List.takeWhile_append_dropWhile (p := (· == '0')) (l := as), hzeros as, hcount, ← hzeros bs,
    hdigits, List.takeWhile_append_dropWhile]

/-- Proper chunks that compare equal are the same. -/
theorem Chunk.Proper.eq_of_compare {a b : Chunk} (ha : a.Proper) (hb : b.Proper)
    (h : a.compare b = .eq) : a = b := by
  cases ha with
  | digits d run hd =>
    cases hb with
    | digits e run' he => exact congrArg Chunk.digits (eq_of_compareRuns h)
    | letter lower hlower => exact absurd h (compare_digit hd hlower).2
  | letter lower hlower =>
    cases hb with
    | digits e run he =>
      have hsame : Ord.compare lower [e] = .eq := h
      exact absurd (Std.OrientedCmp.eq_symm hsame) (compare_digit he hlower).2
    | letter lower' hlower' => exact congrArg Chunk.letter (Std.LawfulEqCmp.eq_of_compare h)

/-- Names that compare equal up to case have the same chunks. -/
theorem chunks_eq_of_compareFolded {a b : List Char} (h : compareFolded a b = .eq) :
    chunks a = chunks b := by
  have hlists : ∀ as bs : List Chunk, (∀ chunk ∈ as, chunk.Proper) → (∀ chunk ∈ bs, chunk.Proper) →
      List.compareLex Chunk.compare as bs = .eq → as = bs := by
    intro as
    induction as with
    | nil =>
      intro bs _ _ h
      cases bs with
      | nil => rfl
      | cons b bs => cases h
    | cons a as ih =>
      intro bs ha hb h
      cases bs with
      | nil => cases h
      | cons b bs =>
        obtain ⟨hahead, hatail⟩ := List.forall_mem_cons.1 ha
        obtain ⟨hbhead, hbtail⟩ := List.forall_mem_cons.1 hb
        rw [List.compareLex_cons_cons, Ordering.then_eq_eq] at h
        rw [hahead.eq_of_compare hbhead h.1, ih bs hatail hbtail h.2]
  exact hlists _ _ (fun _ => proper_of_mem_chunks) (fun _ => proper_of_mem_chunks) h

theorem compareFolded_ne_eq {a b : List Char} (h : lowered a ≠ lowered b) :
    compareFolded a b ≠ .eq := fun heq =>
  h (by rw [lowered_eq_chunks, lowered_eq_chunks, chunks_eq_of_compareFolded heq])

/-- Where two names differ in lower case, the natural order looks no further. -/
theorem naturalCompare_of_lowered_ne {a b : String} (h : lowered a.toList ≠ lowered b.toList) :
    naturalCompare a b = compareFolded a.toList b.toList := by
  unfold naturalCompare
  cases hfolded : compareFolded a.toList b.toList with
  | eq => exact absurd hfolded (compareFolded_ne_eq h)
  | lt | gt => rfl

/-! ## The two laws -/

/-- A number inside names counts by its value: after the same text, which does not end in a digit,
the name with the smaller number comes first, and with one number in two spellings the name that has
fewer zeros in front of it, whatever follows that does not go on with a digit. And names that differ
only in the case of ASCII letters stand in the same place to every name that differs from them in
lower case. -/
theorem natural_order_of_names :
    (∀ (p s t : List Char) (m n : DigitRun),
      (∀ c ∈ p.getLast?, c.isDigit = false) → (∀ c ∈ s.head?, c.isDigit = false) →
      (∀ c ∈ t.head?, c.isDigit = false) →
      m.value < n.value ∨ m.value = n.value ∧ m.leadingZeros < n.leadingZeros →
      naturalCompare (String.ofList (p ++ m.digits ++ s)) (String.ofList (p ++ n.digits ++ t)) = .lt) ∧
    (∀ a b c : String, sameAscii a b = true → lowered c.toList ≠ lowered a.toList →
      naturalCompare a c = naturalCompare b c) := by
  constructor
  · intro p s t m n hp hs ht h
    have hfolded := compareFolded_numbers hp hs ht (DigitRun.compareRuns_eq_lt h)
    rw [naturalCompare, String.toList_ofList, String.toList_ofList, List.append_assoc,
      List.append_assoc, hfolded]
    rfl
  · intro a b c hsame hc
    have hlowered : lowered b.toList = lowered a.toList := by
      rw [lowered_eq_chunks, lowered_eq_chunks, chunks_of_sameAscii hsame]
    rw [naturalCompare_of_lowered_ne hc.symm, naturalCompare_of_lowered_ne (hlowered ▸ hc.symm),
      compareFolded, chunks_of_sameAscii hsame]
    rfl

/-- A number that is longer than it looks. -/
def paddedNine : DigitRun := ⟨['0', '0', '9'], by decide, by simp⟩

@[inherit_doc paddedNine]
def plainTen : DigitRun := ⟨['1', '0'], by decide, by simp⟩

theorem numbered_parts_in_order :
    (paddedNine.value < plainTen.value ∧
      naturalCompare (String.ofList (['7', 'x'] ++ paddedNine.digits ++ ['z']))
        (String.ofList (['7', 'x'] ++ plainTen.digits ++ [])) = .lt) ∧
    (sameAscii "IÑ2" "iÑ2" = true ∧ lowered "iñ10".toList ≠ lowered "IÑ2".toList ∧
      naturalCompare "IÑ2" "iñ10" = naturalCompare "iÑ2" "iñ10") := by
  have hless : paddedNine.value < plainTen.value := by decide
  have hsame : sameAscii "IÑ2" "iÑ2" = true := by decide +kernel
  have hother : lowered "iñ10".toList ≠ lowered "IÑ2".toList := by decide +kernel
  exact ⟨⟨hless, natural_order_of_names.1 _ _ _ _ _ (by simp) (by simp) (by simp)
    (.inl hless)⟩, hsame, hother, natural_order_of_names.2 _ _ _ hsame hother⟩

end FileMarket.Text
