import FileMarket.Proofs.Text.Digits
import FileMarket.Text.NaturalOrder
import Mathlib

/-!
# Laws of the natural order

The natural order of names is a linear order: the instances `Std.TransCmp naturalCompare` and
`Std.LawfulEqCmp naturalCompare`. A digit run and another character are told apart by their first
characters, which is safe because only digits have a lower-case form that begins with a digit
(`isDigit_of_mem_lowerChar`). So every chunk of a name has a `Weight`, and the chunks of two names
compare as the lists of their weights do (`compareFolded_eq_weights`), which is a lexicographic
order of lexicographic orders.

`compareFolded_cons_cons` reads the same comparison from the front of both names: two digit runs are
taken off whole, and anything else one character at a time.
-/

set_option autoImplicit false

namespace FileMarket.Text

/-! ## Lower case and digits -/

theorem isUpper_iff {c : Char} : c.isUpper = true ↔ 65 ≤ c.toNat ∧ c.toNat ≤ 90 := by
  simp [Char.isUpper, UInt32.le_iff_toNat_le]

/-- The character of a code point beyond the digits is no digit; a number that is no code point
stands for the character zero. -/
theorem not_isDigit_ofNat {n : Nat} (h : 58 ≤ n) : (Char.ofNat n).isDigit = false := by
  rw [← Bool.not_eq_true, isDigit_iff, Char.toNat_ofNat]
  split <;> omega

/-- A digit is its own lower-case form. -/
theorem lowerChar_of_isDigit {c : Char} (h : c.isDigit = true) : lowerChar c = [c] := by
  obtain ⟨hlow, hhigh⟩ := isDigit_iff.1 h
  have hascii : c.toNat < 0x80 := by omega
  have hupper : ¬ c.isUpper = true := fun hupper => by
    have hA := (isUpper_iff.1 hupper).1
    omega
  rw [lowerChar, if_pos hascii, Char.toLower_eq_of_not_isUpper hupper]

/-- The small letter of an ASCII character is a digit only if the character is. -/
theorem isDigit_of_isDigit_toLower {c : Char} (h : c.toLower.isDigit = true) :
    c.isDigit = true := by
  by_cases hupper : c.isUpper = true
  · have hA := (isUpper_iff.1 hupper).1
    rw [Char.toLower_eq_of_isUpper hupper, not_isDigit_ofNat (by omega)] at h
    cases h
  · rwa [Char.toLower_eq_of_not_isUpper hupper] at h

/-- A code point from the table of small letters stands beyond the digits. -/
theorem le_of_lower?_eq_some {run : CaseRun} {n m : Nat} (hrun : run ∈ caseRuns)
    (h : run.lower? n = some m) : 58 ≤ m := by
  have hsmall : ∀ run ∈ caseRuns, 58 ≤ run.small := by decide +kernel
  have hbound := hsmall run hrun
  unfold CaseRun.lower? at h
  split at h
  · obtain rfl := Option.some.inj h
    omega
  · cases h

/-- No character but a digit has a digit in its lower-case form. -/
theorem isDigit_of_mem_lowerChar {c x : Char} (hx : x ∈ lowerChar c) (h : x.isDigit = true) :
    c.isDigit = true := by
  unfold lowerChar at hx
  split at hx
  · obtain rfl := List.mem_singleton.1 hx
    exact isDigit_of_isDigit_toLower h
  · split at hx
    -- The dotted capital is the one character with two in its lower-case form.
    · have hdotted : ∀ x ∈ ['i', '\u0307'], x.isDigit = false := by
        rw [List.forall_mem_cons, List.forall_mem_singleton]
        decide
      rw [hdotted x hx] at h
      cases h
    · split at hx
      · rename_i n hn
        obtain rfl := List.mem_singleton.1 hx
        obtain ⟨run, hrun, hlower⟩ := List.exists_of_findSome?_eq_some hn
        rw [not_isDigit_ofNat (le_of_lower?_eq_some hrun hlower)] at h
        cases h
      · obtain rfl := List.mem_singleton.1 hx
        exact h

/-! ## Chunks -/

/-- A digit run that stands at the front of a name is one chunk. -/
theorem chunks_cons_of_isDigit {c : Char} (h : c.isDigit = true) (rest : List Char) :
    chunks (c :: rest) =
      .digits (c :: rest.takeWhile Char.isDigit) :: chunks (rest.dropWhile Char.isDigit) := by
  induction rest generalizing c with
  | nil => simp [chunks, h]
  | cons d rest ih =>
    rw [chunks, if_pos h]
    by_cases hd : d.isDigit = true
    · rw [ih hd, List.takeWhile_cons_of_pos hd, List.dropWhile_cons_of_pos hd]
    · have hchunks : chunks (d :: rest) = .letter (lowerChar d) :: chunks rest := by
        rw [chunks, if_neg hd]
      rw [List.takeWhile_cons_of_neg hd, List.dropWhile_cons_of_neg hd, hchunks]

theorem chunks_cons_of_not_isDigit {c : Char} (h : ¬ c.isDigit = true) (rest : List Char) :
    chunks (c :: rest) = .letter (lowerChar c) :: chunks rest := by
  rw [chunks, if_neg h]

/-- The chunks that names have: a digit run begins with a digit, and the lower-case form of any
other character has none. -/
inductive Chunk.Proper : Chunk → Prop
  | digits (d : Char) (run : List Char) (isDigit : d.isDigit = true) : Proper (.digits (d :: run))
  | letter (lower : List Char) (noDigit : ∀ x ∈ lower, ¬ x.isDigit = true) : Proper (.letter lower)

theorem Chunk.Proper.of_lowerChar {c : Char} (h : ¬ c.isDigit = true) :
    Proper (.letter (lowerChar c)) :=
  .letter _ fun _ hx hdigit => h (isDigit_of_mem_lowerChar hx hdigit)

theorem proper_of_mem_chunks {chunk : Chunk} {s : List Char} (h : chunk ∈ chunks s) :
    chunk.Proper := by
  -- A digit run takes several characters off at once, so the induction is on the length.
  induction hn : s.length using Nat.strong_induction_on generalizing s with
  | _ n ih =>
    cases s with
    | nil => cases h
    | cons c rest =>
      have hlength : rest.length < n := by rw [← hn]; exact Nat.lt_succ_self _
      by_cases hc : c.isDigit = true
      · rw [chunks_cons_of_isDigit hc] at h
        rcases List.mem_cons.1 h with rfl | h
        · exact .digits c _ hc
        · have hdrop : (rest.dropWhile Char.isDigit).length ≤ rest.length :=
            (List.dropWhile_suffix _).length_le
          exact ih _ (Nat.lt_of_le_of_lt hdrop hlength) h rfl
      · rw [chunks_cons_of_not_isDigit hc] at h
        rcases List.mem_cons.1 h with rfl | h
        · exact .of_lowerChar hc
        · exact ih _ hlength h rfl

/-! ## Weights of chunks -/

/-- What a chunk is compared by, the most important part first. -/
structure Weight where
  front : List Char
  significant : List Char
  length : Nat

/-- The order of weights: numbers with fewer significant digits are smaller, and of two spellings of
a number the shorter one comes first. -/
def Weight.compare : Weight → Weight → Ordering :=
  compareLex (compareOn front)
    (compareLex (compareOn fun w => w.significant.length)
      (compareLex (compareOn significant) (compareOn length)))

instance : Std.TransCmp Weight.compare := by
  unfold Weight.compare
  infer_instance

/-- The weight of a chunk. All digit runs have the same front, for against another character any
digit says the same. -/
def Chunk.weight : Chunk → Weight
  | .digits run => ⟨['0'], run.dropWhile (· == '0'), run.length⟩
  | .letter lower => ⟨lower, [], 0⟩

/-- Every digit stands on the same side of a text without digits. -/
theorem compare_digit {d : Char} (hd : d.isDigit = true) {lower : List Char}
    (h : ∀ x ∈ lower, ¬ x.isDigit = true) :
    compare [d] lower = compare ['0'] lower ∧ compare [d] lower ≠ .eq := by
  cases lower with
  | nil => exact ⟨rfl, by rw [List.compare_cons_nil]; decide⟩
  | cons x rest =>
    -- The first character of the text stands below all digits or above all of them, and decides.
    have hx : ¬ (48 ≤ x.toNat ∧ x.toNat ≤ 57) := fun hx => h x List.mem_cons_self (isDigit_iff.2 hx)
    rw [List.compare_cons_cons, List.compare_cons_cons]
    by_cases hbelow : x.toNat < 48
    · have hgt : ∀ e : Char, e.isDigit = true → compare e x = .gt := fun e he =>
        compare_gt_iff_gt.2 (UInt32.lt_iff_toNat_lt.2 (hbelow.trans_le (isDigit_iff.1 he).1))
      rw [hgt d hd, hgt '0' (by decide)]
      exact ⟨rfl, nofun⟩
    · have habove : 57 < x.toNat := by omega
      have hlt : ∀ e : Char, e.isDigit = true → compare e x = .lt := fun e he =>
        compare_lt_iff_lt.2 (UInt32.lt_iff_toNat_lt.2 ((isDigit_iff.1 he).2.trans_lt habove))
      rw [hlt d hd, hlt '0' (by decide)]
      exact ⟨rfl, nofun⟩

/-- Proper chunks compare as their weights do. -/
theorem Chunk.compare_eq_weight {a b : Chunk} (ha : a.Proper) (hb : b.Proper) :
    a.compare b = a.weight.compare b.weight := by
  -- The fronts of a digit run and another character differ, so the rest of the weights is not read.
  have hmixed : ∀ {d : Char} {run lower : List Char}, d.isDigit = true →
      (∀ x ∈ lower, ¬ x.isDigit = true) →
      Chunk.compare (.digits (d :: run)) (.letter lower) =
        Weight.compare (Chunk.digits (d :: run)).weight (Chunk.letter lower).weight := by
    intro d run lower hd hlower
    obtain ⟨hsame, hne⟩ := compare_digit hd hlower
    show Ord.compare [d] lower = (Ord.compare ['0'] lower).then _
    rw [← hsame]
    cases hcompare : Ord.compare [d] lower with
    | eq => exact absurd hcompare hne
    | lt | gt => rfl
  cases ha with
  | digits d run hd =>
    cases hb with
    | digits e run' he => rfl
    | letter lower hlower => exact hmixed hd hlower
  | letter lower hlower =>
    cases hb with
    | digits e run he =>
      rw [@Std.OrientedCmp.eq_swap _ Weight.compare, ← hmixed he hlower]
      show Ord.compare lower [e] = (Ord.compare [e] lower).swap
      exact Std.OrientedCmp.eq_swap
    | letter lower' hlower' =>
      show Ord.compare lower lower' = (Ord.compare lower lower').then .eq
      rw [Ordering.then_eq]

/-! ## Names by their chunks -/

/-- The weights of the chunks of a name. -/
def weights (s : List Char) : List Weight := (chunks s).map Chunk.weight

theorem compareLex_weight {as bs : List Chunk} (ha : ∀ a ∈ as, a.Proper)
    (hb : ∀ b ∈ bs, b.Proper) :
    List.compareLex Chunk.compare as bs =
      List.compareLex Weight.compare (as.map Chunk.weight) (bs.map Chunk.weight) := by
  induction as generalizing bs with
  | nil => cases bs <;> rfl
  | cons a as ih =>
    cases bs with
    | nil => rfl
    | cons b bs =>
      obtain ⟨hahead, hatail⟩ := List.forall_mem_cons.1 ha
      obtain ⟨hbhead, hbtail⟩ := List.forall_mem_cons.1 hb
      rw [List.map_cons, List.map_cons, List.compareLex_cons_cons, List.compareLex_cons_cons,
        Chunk.compare_eq_weight hahead hbhead, ih hatail hbtail]

theorem compareFolded_eq_weights (a b : List Char) :
    compareFolded a b = List.compareLex Weight.compare (weights a) (weights b) :=
  compareLex_weight (fun _ => proper_of_mem_chunks) (fun _ => proper_of_mem_chunks)

instance : Std.TransCmp compareFolded where
  eq_swap {a b} := by
    rw [compareFolded_eq_weights, compareFolded_eq_weights]
    exact Std.OrientedCmp.eq_swap
  isLE_trans {a b c} hab hbc := by
    rw [compareFolded_eq_weights] at hab hbc ⊢
    exact Std.TransCmp.isLE_trans hab hbc

/-- The order of names is read from the front: while both begin with a digit, whole digit runs are
compared and taken off, and else one character of each in lower case. -/
theorem compareFolded_cons_cons (c d : Char) (s t : List Char) :
    compareFolded (c :: s) (d :: t) =
      if c.isDigit && d.isDigit then
        (compareRuns (c :: s.takeWhile Char.isDigit) (d :: t.takeWhile Char.isDigit)).then
          (compareFolded (s.dropWhile Char.isDigit) (t.dropWhile Char.isDigit))
      else (compare (lowerChar c) (lowerChar d)).then (compareFolded s t) := by
  have hdecided : ∀ order : Ordering, order ≠ .eq → ∀ more more' : Ordering,
      order.then more = order.then more' := by
    intro order horder more more'
    cases order with
    | eq => exact absurd rfl horder
    | lt | gt => rfl
  have hnoDigit : ∀ {e : Char}, ¬ e.isDigit = true → ∀ x ∈ lowerChar e, ¬ x.isDigit = true :=
    fun he x hx hdigit => he (isDigit_of_mem_lowerChar hx hdigit)
  unfold compareFolded
  by_cases hc : c.isDigit = true <;> by_cases hd : d.isDigit = true
  · rw [if_pos (by rw [hc, hd]; rfl), chunks_cons_of_isDigit hc, chunks_cons_of_isDigit hd,
      List.compareLex_cons_cons]
    rfl
  -- A digit and another character differ, so what comes after them does not matter.
  · rw [if_neg (by simp [hd]), chunks_cons_of_isDigit hc, chunks_cons_of_not_isDigit hd,
      List.compareLex_cons_cons, lowerChar_of_isDigit hc]
    exact hdecided _ (compare_digit hc (hnoDigit hd)).2 _ _
  · rw [if_neg (by simp [hc]), chunks_cons_of_not_isDigit hc, chunks_cons_of_isDigit hd,
      List.compareLex_cons_cons, lowerChar_of_isDigit hd]
    refine hdecided (compare (lowerChar c) [d]) (fun heq => ?_) _ _
    exact (compare_digit hd (hnoDigit hc)).2 (Std.OrientedCmp.eq_symm heq)
  · rw [if_neg (by simp [hc]), chunks_cons_of_not_isDigit hc, chunks_cons_of_not_isDigit hd,
      List.compareLex_cons_cons]
    rfl

/-! ## The natural order -/

instance : Std.TransCmp naturalCompare := by
  have folded : Std.TransCmp fun a b : String => compareFolded a.toList b.toList :=
    { eq_swap := Std.OrientedCmp.eq_swap, isLE_trans := Std.TransCmp.isLE_trans }
  exact inferInstanceAs (Std.TransCmp (compareLex
    (fun a b : String => compareFolded a.toList b.toList) (compareOn String.toList)))

/-- Names that differ in any way are told apart, at the latest by their characters. -/
instance : Std.LawfulEqCmp naturalCompare where
  eq_of_compare {a b} h := by
    have hchars : compare a.toList b.toList = .eq := (Ordering.then_eq_eq.1 h).2
    exact String.toList_injective (Std.LawfulEqCmp.eq_of_compare hchars)

end FileMarket.Text
