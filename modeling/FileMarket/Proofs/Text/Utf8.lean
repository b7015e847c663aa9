import FileMarket.Text.Utf8
import Mathlib.Tactic

/-!
# Laws of UTF-8

The octets of a text are read back as the text (`ofUtf8_toUtf8`): the octets of each character are
read as that character, whatever follows them (`readOctets_utf8EncodeChar`). An octet below `0x80`
stands for an ASCII character and belongs to no other one (`le_of_mem_utf8EncodeChar`). Octets that
are not UTF-8 make no more characters than there are octets, also counted for each kind of ASCII
character (`countP_readOctets_le`).
-/

set_option autoImplicit false

namespace FileMarket.Text

/-! ## Octets of a text -/

theorem toList_loop_eq (bytes : ByteArray) (i : Nat) (read : List UInt8) :
    ByteArray.toList.loop bytes i read = read.reverse ++ bytes.data.toList.drop i := by
  induction hleft : bytes.size - i generalizing i read with
  | zero =>
    have hend : bytes.data.toList.length ≤ i := by
      rw [Array.length_toList]
      exact Nat.le_of_sub_eq_zero hleft
    rw [ByteArray.toList.loop, if_neg (by omega), List.drop_eq_nil_of_le hend, List.append_nil]
  | succ left ih =>
    have hi : i < bytes.data.toList.length := by
      rw [Array.length_toList]
      exact Nat.lt_of_sub_eq_succ hleft
    have hget : bytes.get! i = bytes.data.toList[i] := getElem!_pos bytes.data i (by simpa using hi)
    rw [ByteArray.toList.loop, if_pos (by omega), ih (i + 1) _ (by omega),
      List.drop_eq_getElem_cons hi, List.reverse_cons, List.append_assoc, List.singleton_append, hget]

/-- A text has the octets of its characters. -/
theorem toUtf8_eq_flatMap (s : String) : toUtf8 s = s.toList.flatMap String.utf8EncodeChar := by
  have hbytes : s.toUTF8 = (s.toList.flatMap String.utf8EncodeChar).toByteArray := by
    rw [← List.utf8Encode, ← String.toByteArray_ofList, String.ofList_toList]
    rfl
  rw [toUtf8, hbytes, ByteArray.toList, toList_loop_eq, List.reverse_nil, List.nil_append,
    List.drop_zero, List.toList_data_toByteArray]

/-! ## Reading a character back -/

theorem readOctets_cons (p : Option OpenChar) (octet : UInt8) (rest : List UInt8) :
    readOctets p (octet :: rest) =
      (readOctet p octet.toNat).1 ++ readOctets (readOctet p octet.toNat).2 rest := by
  cases p with
  | none => rfl
  | some p => rfl

theorem toNat_octet {n : Nat} (h : n < 256) : (UInt8.ofNat n).toNat = n :=
  UInt8.toNat_ofNat_of_lt' h

variable {n owed value low high : Nat}

/-- The first octet of a longer character opens it. -/
theorem readOctets_lead {p : OpenChar} (hn : n < 256) (h : startChar n = ([], some p))
    (rest : List UInt8) : readOctets none (UInt8.ofNat n :: rest) = readOctets (some p) rest := by
  rw [readOctets_cons, toNat_octet hn, readOctet, h, List.nil_append]

/-- A further octet, in the range that the open character expects, is taken up by it. -/
theorem readOctets_tail (hn : n < 64) (hlow : low ≤ n + 128) (hhigh : n + 128 ≤ high)
    (rest : List UInt8) :
    readOctets (some ⟨owed + 2, value, low, high⟩) (UInt8.ofNat (n + 128) :: rest) =
      readOctets (some ⟨owed + 1, 64 * value + n, 0x80, 0xBF⟩) rest := by
  rw [readOctets_cons, toNat_octet (by omega), readOctet, if_pos ⟨hlow, hhigh⟩]
  dsimp only
  rw [if_neg (by omega), Nat.add_sub_cancel, List.nil_append]
  rfl

/-- The last octet of a character completes it. -/
theorem readOctets_last (hn : n < 64) (hlow : low ≤ n + 128) (hhigh : n + 128 ≤ high)
    (rest : List UInt8) :
    readOctets (some ⟨1, value, low, high⟩) (UInt8.ofNat (n + 128) :: rest) =
      Char.ofNat (64 * value + n) :: readOctets none rest := by
  rw [readOctets_cons, toNat_octet (by omega), readOctet, if_pos ⟨hlow, hhigh⟩]
  dsimp only
  rw [if_pos (Nat.le_refl 1), Nat.add_sub_cancel, List.singleton_append]

/-- The octets of a character are read as the character, whatever follows. -/
theorem readOctets_utf8EncodeChar (c : Char) (rest : List UInt8) :
    readOctets none (String.utf8EncodeChar c ++ rest) = c :: readOctets none rest := by
  have hvalid : c.toNat < 0xD800 ∨ 0xDFFF < c.toNat ∧ c.toNat < 0x110000 := c.valid
  have hchar : ∀ n, n = c.toNat → Char.ofNat n = c := by
    rintro n rfl
    exact Char.ofNat_toNat c
  unfold String.utf8EncodeChar
  rw [show c.val.toNat = c.toNat from rfl]
  dsimp only
  split
  · -- one octet
    rw [List.singleton_append, readOctets_cons, toNat_octet (by omega), readOctet, startChar,
      if_pos (by omega), hchar _ rfl, List.singleton_append]
  split
  · -- two octets
    have hlead : startChar (c.toNat / 64 % 32 + 192) =
        ([], some ⟨1, c.toNat / 64, 0x80, 0xBF⟩) := by
      rw [startChar, if_neg (by omega), if_neg (by omega), if_pos (by omega)]
      simp only [Prod.mk.injEq, Option.some.injEq, OpenChar.mk.injEq, true_and, and_true]
      omega
    rw [List.cons_append, List.singleton_append, readOctets_lead (by omega) hlead,
      readOctets_last (by omega) (by omega) (by omega), hchar _ (by omega)]
  split
  · -- three octets, of which the second keeps clear of shorter spellings and of surrogates
    have hlead : startChar (c.toNat / 4096 % 16 + 224) = ([], some ⟨2, c.toNat / 4096,
        if c.toNat / 4096 = 0 then 0xA0 else 0x80, if c.toNat / 4096 = 13 then 0x9F else 0xBF⟩) := by
      rw [startChar, if_neg (by omega), if_neg (by omega), if_neg (by omega), if_pos (by omega)]
      simp only [Prod.mk.injEq, Option.some.injEq, OpenChar.mk.injEq, true_and]
      exact ⟨by omega, if_congr (by omega) rfl rfl, if_congr (by omega) rfl rfl⟩
    rw [List.cons_append, List.cons_append, List.singleton_append, readOctets_lead (by omega) hlead,
      readOctets_tail (by omega) (by split <;> omega) (by split <;> omega),
      readOctets_last (by omega) (by omega) (by omega), hchar _ (by omega)]
  · -- four octets, of which the second keeps clear of shorter spellings and of what is no code point
    have hlead : startChar (c.toNat / 262144 % 8 + 240) = ([], some ⟨3, c.toNat / 262144,
        if c.toNat / 262144 = 0 then 0x90 else 0x80, if c.toNat / 262144 = 4 then 0x8F else 0xBF⟩) := by
      rw [startChar, if_neg (by omega), if_neg (by omega), if_neg (by omega), if_neg (by omega),
        if_pos (by omega)]
      simp only [Prod.mk.injEq, Option.some.injEq, OpenChar.mk.injEq, true_and]
      exact ⟨by omega, if_congr (by omega) rfl rfl, if_congr (by omega) rfl rfl⟩
    rw [List.cons_append, List.cons_append, List.cons_append, List.singleton_append,
      readOctets_lead (by omega) hlead,
      readOctets_tail (by omega) (by split <;> omega) (by split <;> omega),
      readOctets_tail (by omega) (by omega) (by omega),
      readOctets_last (by omega) (by omega) (by omega), hchar _ (by omega)]

/-- A text is read back from its octets. -/
theorem ofUtf8_toUtf8 (s : String) : ofUtf8 (toUtf8 s) = s := by
  have hread : ∀ cs : List Char, readOctets none (cs.flatMap String.utf8EncodeChar) = cs := by
    intro cs
    induction cs with
    | nil => rfl
    | cons c cs ih => rw [List.flatMap_cons, readOctets_utf8EncodeChar, ih]
  rw [ofUtf8, toUtf8_eq_flatMap, hread, String.ofList_toList]

/-! ## ASCII -/

/-- An ASCII character is one octet. -/
theorem utf8EncodeChar_of_ascii {c : Char} (h : c.toNat < 0x80) :
    String.utf8EncodeChar c = [UInt8.ofNat c.toNat] :=
  if_pos (Nat.le_of_lt_succ h)

/-- An ASCII text has one octet for each character. -/
theorem toUtf8_of_ascii {s : List Char} (h : ∀ c ∈ s, c.toNat < 0x80) :
    toUtf8 (String.ofList s) = s.map fun c => UInt8.ofNat c.toNat := by
  rw [toUtf8_eq_flatMap, String.toList_ofList, List.map_eq_flatMap]
  exact List.flatMap_congr fun c hc => utf8EncodeChar_of_ascii (h c hc)

/-- All octets of any other character lie beyond ASCII. -/
theorem le_of_mem_utf8EncodeChar {c : Char} (h : 0x80 ≤ c.toNat) {octet : UInt8}
    (hmem : octet ∈ String.utf8EncodeChar c) : 0x80 ≤ octet.toNat := by
  have hval : c.val.toNat = c.toNat := rfl
  have hoctet : ∀ n, 0x80 ≤ n → n < 256 → octet = UInt8.ofNat n → 0x80 ≤ octet.toNat := by
    rintro n hlow hhigh rfl
    rwa [toNat_octet hhigh]
  unfold String.utf8EncodeChar at hmem
  rw [hval] at hmem
  dsimp only at hmem
  split at hmem
  · omega
  split at hmem
  · simp only [List.mem_cons, List.not_mem_nil, or_false] at hmem
    rcases hmem with h | h
    all_goals exact hoctet _ (by omega) (by omega) h
  split at hmem
  · simp only [List.mem_cons, List.not_mem_nil, or_false] at hmem
    rcases hmem with h | h | h
    all_goals exact hoctet _ (by omega) (by omega) h
  · simp only [List.mem_cons, List.not_mem_nil, or_false] at hmem
    rcases hmem with h | h | h | h
    all_goals exact hoctet _ (by omega) (by omega) h

/-! ## Counting characters -/

section Count

variable {mark : Nat → Bool}

/-- One for a character that is open, since it is still to be completed or replaced. -/
def owedCharacters : Option OpenChar → Nat
  | none => 0
  | some _ => 1

theorem countP_singleton_le (c : Char) : [c].countP (fun c => mark c.toNat) ≤ 1 :=
  List.countP_le_length

theorem countP_startChar_le (beyond : ∀ n, 0x80 ≤ n → mark n = true) (b : Nat) :
    (startChar b).1.countP (fun c => mark c.toNat) + owedCharacters (startChar b).2 ≤
      if mark b then 1 else 0 := by
  by_cases hascii : b < 0x80
  · -- An ASCII octet is the one character that it stands for.
    have hvalid : b.isValidChar := Or.inl (by omega)
    have hcode : (Char.ofNat b).toNat = b := by
      rw [Char.ofNat, dif_pos hvalid]
      rfl
    rw [startChar, if_pos hascii, List.countP_singleton, hcode]
    exact Nat.le_refl _
  · rw [if_pos (beyond b (by omega)), startChar, if_neg hascii]
    split
    · exact countP_singleton_le replacement
    split
    · exact Nat.le_refl 1
    split
    · exact Nat.le_refl 1
    split
    · exact Nat.le_refl 1
    · exact countP_singleton_le replacement

/-- Where all that is beyond ASCII is marked, no octet makes more marked characters than it is
itself and than were owed. -/
theorem countP_readOctet_le (beyond : ∀ n, 0x80 ≤ n → mark n = true) (p : Option OpenChar) (b : Nat) :
    (readOctet p b).1.countP (fun c => mark c.toNat) + owedCharacters (readOctet p b).2 ≤
      owedCharacters p + if mark b then 1 else 0 := by
  cases p with
  | none => exact (countP_startChar_le beyond b).trans (Nat.le_add_left _ _)
  | some p =>
    rw [readOctet]
    split
    · dsimp only
      split
      · exact (countP_singleton_le _).trans (Nat.le_add_right _ _)
      · exact Nat.le_add_right _ _
    · -- The open character is replaced, which it was owed for, and the octet starts anew.
      have hstart := countP_startChar_le beyond b
      have hreplaced : [replacement].countP (fun c => mark c.toNat) ≤ 1 := countP_singleton_le _
      show (replacement :: (startChar b).1).countP (fun c => mark c.toNat) +
        owedCharacters (startChar b).2 ≤ 1 + _
      rw [← List.singleton_append, List.countP_append]
      omega

/-- Where all that is beyond ASCII is marked, a text has no more marked characters than its octets
are. -/
theorem countP_readOctets_le (beyond : ∀ n, 0x80 ≤ n → mark n = true) (p : Option OpenChar)
    (octets : List UInt8) :
    (readOctets p octets).countP (fun c => mark c.toNat) ≤
      owedCharacters p + octets.countP fun octet => mark octet.toNat := by
  induction octets generalizing p with
  | nil =>
    cases p with
    | none => exact Nat.le_refl 0
    | some p => exact countP_singleton_le replacement
  | cons octet rest ih =>
    have hstep := countP_readOctet_le beyond p octet.toNat
    have hrest := ih (readOctet p octet.toNat).2
    rw [readOctets_cons, List.countP_append, List.countP_cons]
    omega

end Count

end FileMarket.Text
