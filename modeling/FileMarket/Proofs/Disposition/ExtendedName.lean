import FileMarket.Proofs.Disposition.Parameters
import FileMarket.Proofs.Text.FormValue

/-!
# Extended names

An extended value has the octets of a name one by one, each as a character that stands for itself or
as an escape (`WrittenOctet`). Values are read as those of form fields are, for which two of the
characters that may stand for themselves have another meaning: an ampersand ends the value, and a
plus sign is a blank.

Main statement: a name is read back from its extended form exactly if neither of the two is written
without an escape (`extended_name_read_iff`).
-/

set_option autoImplicit false

namespace FileMarket

open Text

/-! ## Extended values as they are written -/

/-- The characters that an extended value may have without an escape. -/
def isAttributeChar (c : Char) : Bool := c.isAlphanum || "!#$&+-.^_`|~".toList.contains c

/-- One octet of an extended value: as a character that stands for itself, or as a percent sign and
two hexadecimal digits of either case. -/
inductive WrittenOctet where
  | plain (c : Char) (isAttribute : isAttributeChar c = true)
  | escaped (high low : Char) (isHigh : (hexValue? high).isSome) (isLow : (hexValue? low).isSome)

namespace WrittenOctet

/-- The octet that is meant. -/
def octet : WrittenOctet → UInt8
  | plain c _ => UInt8.ofNat c.toNat
  | escaped high low isHigh isLow =>
    UInt8.ofNat (16 * (hexValue? high).get isHigh + (hexValue? low).get isLow)

/-- The characters that are written for it. -/
def text : WrittenOctet → List Char
  | plain c _ => [c]
  | escaped high low _ _ => ['%', high, low]

/-- Whether it is written as one of the two characters with another meaning in form values. -/
def isFormSign : WrittenOctet → Bool
  | plain c _ => c == '&' || c == '+'
  | escaped .. => false

/-- The octets of what is written for it. -/
def octets (w : WrittenOctet) : List UInt8 := w.text.map fun c => UInt8.ofNat c.toNat

end WrittenOctet

/-! ## Characters of extended values -/

/-- Characters that may stand for themselves are visible ASCII characters, and neither semicolons
nor percent signs. -/
theorem isAttributeChar_imp {c : Char} (h : isAttributeChar c = true) :
    0x21 ≤ c.toNat ∧ c.toNat < 0x7F ∧ c ≠ ';' ∧ c ≠ '%' := by
  have hsigns : ∀ sign ∈ "!#$&+-.^_`|~".toList,
      0x21 ≤ sign.toNat ∧ sign.toNat < 0x7F ∧ sign ≠ ';' ∧ sign ≠ '%' := by simp
  rcases Bool.or_eq_true_iff.1 h with halpha | hsign
  · have hranges := toNat_of_isAlphanum halpha
    refine ⟨by omega, by omega, ?_, ?_⟩
    · rintro rfl
      exact absurd halpha (by decide)
    · rintro rfl
      exact absurd halpha (by decide)
  · exact hsigns c (List.contains_iff_mem.1 hsign)

namespace WrittenOctet

/-- What is written for an octet is visible ASCII without semicolons. -/
theorem mem_text {w : WrittenOctet} {c : Char} (h : c ∈ w.text) :
    0x21 ≤ c.toNat ∧ c.toNat < 0x7F ∧ c ≠ ';' := by
  have hdigit : ∀ digit : Char, (hexValue? digit).isSome →
      0x21 ≤ digit.toNat ∧ digit.toNat < 0x7F ∧ digit ≠ ';' := by
    intro digit hsome
    have hranges := toNat_of_hexValue? hsome
    refine ⟨by omega, by omega, ?_⟩
    rintro rfl
    exact absurd hsome (by decide)
  cases w with
  | plain sign isAttribute =>
    obtain rfl := List.mem_singleton.1 h
    obtain ⟨hlow, hhigh, hsemicolon, -⟩ := isAttributeChar_imp isAttribute
    exact ⟨hlow, hhigh, hsemicolon⟩
  | escaped high low isHigh isLow =>
    simp only [text, List.mem_cons, List.not_mem_nil, or_false] at h
    rcases h with rfl | rfl | rfl
    · decide
    · exact hdigit _ isHigh
    · exact hdigit _ isLow

/-- An octet that is written as a character is one of ASCII. -/
theorem lt_of_isFormSign {w : WrittenOctet} (h : w.isFormSign = true) : w.octet.toNat < 0x80 := by
  cases w with
  | plain c isAttribute =>
    obtain ⟨-, hhigh, -⟩ := isAttributeChar_imp isAttribute
    rw [octet, toNat_octet (by omega)]
    omega
  | escaped => cases h

/-! ## Reading the octets -/

variable {rest : List UInt8}

/-- Every octet is read as it is meant, unless it is written as one of the two signs. -/
theorem formOctets_append {w : WrittenOctet} (h : w.isFormSign = false) :
    formOctets (w.octets ++ rest) = w.octet :: formOctets rest := by
  cases w with
  | plain c isAttribute =>
    obtain ⟨-, hhigh, -, hpercent⟩ := isAttributeChar_imp isAttribute
    have hne : ∀ sign : Char, sign.toNat < 0x7F → c ≠ sign →
        UInt8.ofNat c.toNat ≠ UInt8.ofNat sign.toNat := by
      intro sign hsign hc heq
      have hsame := congrArg UInt8.toNat heq
      rw [toNat_octet (by omega), toNat_octet (by omega)] at hsame
      exact hc (by rw [← Char.ofNat_toNat c, hsame, Char.ofNat_toNat])
    simp only [isFormSign, Bool.or_eq_false_iff, beq_eq_false_iff_ne] at h
    have hplus : plusToBlank (UInt8.ofNat c.toNat) = UInt8.ofNat c.toNat :=
      if_neg (hne '+' (by decide) h.2)
    show formOctets (UInt8.ofNat c.toNat :: rest) = UInt8.ofNat c.toNat :: formOctets rest
    rw [formOctets_cons (hne '&' (by decide) h.1) (hne '%' (by decide) hpercent), hplus]
  | escaped high low isHigh isLow =>
    exact formOctets_escape (Option.some_get isHigh).symm (Option.some_get isLow).symm rest

theorem formOctets_flatMap_append {written : List WrittenOctet}
    (h : ∀ w ∈ written, w.isFormSign = false) :
    formOctets (written.flatMap octets ++ rest) = written.map octet ++ formOctets rest := by
  induction written with
  | nil => rfl
  | cons w written ih =>
    obtain ⟨hw, hwritten⟩ := List.forall_mem_cons.1 h
    rw [List.flatMap_cons, List.append_assoc, formOctets_append hw, ih hwritten]
    rfl

/-- One of the two signs is not read as the character that it is. -/
theorem readOctets_ne_of_isFormSign {w : WrittenOctet} (h : w.isFormSign = true) {c : Char}
    (hc : String.utf8EncodeChar c = [w.octet]) (cs : List Char) :
    readOctets none (formOctets (w.octets ++ rest)) ≠ c :: cs := by
  cases w with
  | plain sign isAttribute =>
    have hsign : sign = '&' ∨ sign = '+' := by simpa [isFormSign] using h
    rcases hsign with rfl | rfl
    · show readOctets none (formOctets (0x26 :: rest)) ≠ c :: cs
      rw [formOctets_ampersand]
      exact (List.cons_ne_nil c cs).symm
    · have hplus : c = '+' := by
        have hread := readOctets_utf8EncodeChar c []
        rw [hc] at hread
        exact (List.cons.inj hread).1.symm
      subst hplus
      have hblank : formOctets (0x2B :: rest) = 0x20 :: formOctets rest :=
        formOctets_cons (by decide) (by decide) rest
      show readOctets none (formOctets (0x2B :: rest)) ≠ '+' :: cs
      rw [hblank, readOctets_cons]
      intro heq
      exact absurd (List.cons.inj heq).1 (by decide)
  | escaped => cases h

/-- The characters of a name are read back exactly if none of them is written as one of the two
signs. -/
theorem readOctets_flatMap_iff {cs : List Char} {written : List WrittenOctet}
    (h : written.map octet = cs.flatMap String.utf8EncodeChar) :
    readOctets none (formOctets (written.flatMap octets)) = cs ↔
      ∀ w ∈ written, w.isFormSign = false := by
  induction cs generalizing written with
  | nil =>
    obtain rfl := List.map_eq_nil_iff.1 h
    simp [readOctets]
  | cons c cs ih =>
    obtain ⟨front, back, rfl, hfront, hback⟩ := List.map_eq_append_iff.1 h
    rw [List.flatMap_append, List.forall_mem_append]
    by_cases hgood : ∀ w ∈ front, w.isFormSign = false
    · rw [formOctets_flatMap_append hgood, hfront, readOctets_utf8EncodeChar, List.cons.injEq,
        ih hback]
      exact ⟨fun h => ⟨hgood, h.2⟩, fun h => ⟨rfl, h.2⟩⟩
    · -- Only an ASCII character has an octet written as a sign, and it has no other octet.
      push Not at hgood
      obtain ⟨w, hw, hsign⟩ := hgood
      rw [ne_eq, Bool.not_eq_false] at hsign
      have hascii : c.toNat < 0x80 := by
        by_contra hlarge
        have hmem : w.octet ∈ String.utf8EncodeChar c := hfront ▸ List.mem_map_of_mem hw
        have hle := le_of_mem_utf8EncodeChar (Nat.le_of_not_lt hlarge) hmem
        exact absurd (lt_of_isFormSign hsign) (Nat.not_lt.2 hle)
      rw [utf8EncodeChar_of_ascii hascii] at hfront
      obtain ⟨only, rfl, hoctet⟩ := List.map_eq_singleton_iff.1 hfront
      obtain rfl := List.mem_singleton.1 hw
      have hne : readOctets none (formOctets (w.octets ++ back.flatMap octets)) ≠ c :: cs :=
        readOctets_ne_of_isFormSign hsign (by rw [utf8EncodeChar_of_ascii hascii, hoctet]) cs
      simp [hne, hsign]

end WrittenOctet

/-! ## Extended names in content dispositions -/

/-- A content disposition with an extended name gives what its value is read as. -/
theorem dispositionFileName_extended {value : List Char} (h : ∀ c ∈ value, isBlank c = false)
    (hsemicolon : ';' ∉ value) :
    dispositionFileName ("attachment; filename*=UTF-8''" ++ String.ofList value) =
      if allBlank (formValue (String.ofList value)) then none
      else some (formValue (String.ofList value)) := by
  have hheader : "attachment; filename*=UTF-8''" ++ String.ofList value =
      String.ofList ("attachment".toList ++ ';' :: (" filename*=UTF-8''".toList ++ value)) := by
    rw [← String.toList_inj]
    simp
  have hone : ';' ∉ " filename*=UTF-8''".toList ++ value := by
    rw [List.mem_append, not_or]
    exact ⟨by decide, hsemicolon⟩
  have hblank : ∀ front : List Char, (∀ c ∈ front, isBlank c = false) →
      ∀ c ∈ front ++ value, isBlank c = false :=
    fun front hfront => List.forall_mem_append.2 ⟨hfront, h⟩
  have hparameter : ∀ c ∈ "filename*=UTF-8''".toList, isBlank c = false := by simp [isBlank]
  have hcharset : ∀ c ∈ "UTF-8''".toList, isBlank c = false := by simp [isBlank]
  have htrim : trimChars (" filename*=UTF-8''".toList ++ value) =
      "filename*".toList ++ '=' :: ("UTF-8''".toList ++ value) :=
    (trimChars_cons (by decide) _).trans (trimChars_eq_self (hblank _ hparameter))
  have hsplit : NameParameter.splitKey (trimChars (" filename*=UTF-8''".toList ++ value)) =
      some ("filename*".toList, "UTF-8''".toList ++ value) :=
    NameParameter.splitKey_eq_some_iff.2 ⟨htrim, by decide⟩
  have hkey : NameParameter.keyOf (" filename*=UTF-8''".toList ++ value) = "filename*".toList := by
    rw [NameParameter.keyOf_of_split hsplit]
    decide
  have hvalue : NameParameter.extendedName (trimChars ("UTF-8''".toList ++ value)) =
      formValue (String.ofList value) := by
    rw [trimChars_eq_self (hblank _ hcharset)]
    rfl
  have hread := NameParameter.read?_extended hsplit hkey
  rw [hvalue] at hread
  rw [dispositionFileName, hheader, nameParameters_attachment, List.splitOn_eq_singleton hone]
  split
  · rename_i hall
    rw [if_pos hall] at hread
    rw [List.filterMap_cons_none hread]
    rfl
  · rename_i hsome
    rw [if_neg hsome] at hread
    rw [List.filterMap_cons_some hread]
    rfl

/-- A name that is not blank is read back from its extended form exactly if every ampersand and every
plus sign in it is escaped. -/
theorem extended_name_read_iff (name : String) (nonblank : allBlank name = false)
    (written : List WrittenOctet) (spelled : written.map WrittenOctet.octet = toUtf8 name) :
    dispositionFileName
        ("attachment; filename*=UTF-8''" ++ String.ofList (written.flatMap WrittenOctet.text)) =
      some name ↔ ∀ w ∈ written, w.isFormSign = false := by
  have htext : ∀ c ∈ written.flatMap WrittenOctet.text,
      0x21 ≤ c.toNat ∧ c.toNat < 0x7F ∧ c ≠ ';' := by
    intro c hc
    obtain ⟨w, -, hmem⟩ := List.mem_flatMap.1 hc
    exact WrittenOctet.mem_text hmem
  have hoctets : toUtf8 (String.ofList (written.flatMap WrittenOctet.text)) =
      written.flatMap WrittenOctet.octets := by
    rw [toUtf8_of_ascii fun c hc => (htext c hc).2.1.trans (by decide), List.map_flatMap]
    rfl
  have hread : formValue (String.ofList (written.flatMap WrittenOctet.text)) = name ↔
      ∀ w ∈ written, w.isFormSign = false := by
    rw [toUtf8_eq_flatMap] at spelled
    rw [formValue_eq, hoctets, ← WrittenOctet.readOctets_flatMap_iff spelled, ofUtf8,
      ← String.toList_inj, String.toList_ofList]
  rw [dispositionFileName_extended
    (fun c hc => isBlank_of_visible (htext c hc).1 (htext c hc).2.1)
    (fun hc => (htext _ hc).2.2 rfl), ← hread]
  constructor
  · intro h
    split at h
    · cases h
    · exact Option.some.inj h
  · rintro rfl
    rw [if_neg (by simp [nonblank])]

/-- A name of an accented letter and both signs, as it is written with all that has to be escaped
escaped, in digits of either case. -/
def signsWritten : List WrittenOctet :=
  [.escaped 'C' '3' rfl rfl, .escaped 'a' '9' rfl rfl, .escaped '2' 'B' rfl rfl,
    .escaped '2' '6' rfl rfl, .plain '!' rfl]

theorem escaped_signs_read :
    allBlank "é+&!" = false ∧ signsWritten.map WrittenOctet.octet = toUtf8 "é+&!" ∧
      dispositionFileName "attachment; filename*=UTF-8''%C3%a9%2B%26!" = some "é+&!" := by
  have hspelled : signsWritten.map WrittenOctet.octet = toUtf8 "é+&!" := by
    rw [toUtf8_eq_flatMap]
    decide
  exact ⟨by decide, hspelled,
    (extended_name_read_iff "é+&!" (by decide) signsWritten hspelled).2 (by decide)⟩

/-- A plus sign may stand for itself in an extended value, but it is read as a blank. -/
theorem plain_sign_misread :
    ∃ written : List WrittenOctet, written.map WrittenOctet.octet = toUtf8 "a+b" ∧
      String.ofList (written.flatMap WrittenOctet.text) = "a+b" ∧ allBlank "a+b" = false ∧
      dispositionFileName "attachment; filename*=UTF-8''a+b" = some "a b" := by
  refine ⟨[.plain 'a' rfl, .plain '+' rfl, .plain 'b' rfl], ?_, by decide, by decide, ?_⟩
  · rw [toUtf8_eq_flatMap]
    decide
  · decide +kernel

end FileMarket
