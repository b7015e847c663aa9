import FileMarket.Proofs.Text.Ascii
import FileMarket.Proofs.Text.Utf8
import FileMarket.Text.FormValue

/-!
# Laws of form values

What the octets of a written value are read as, one at a time (`formOctets`): an ampersand ends the
value, a plus sign is a blank, an escape is the octet it stands for, and any other octet is itself.
So a value has no more characters of a kind than are written, if percent signs are counted among
them (`countP_formValue_le`).
-/

set_option autoImplicit false

namespace FileMarket.Text

/-- The octets that a written value stands for. -/
def formOctets (written : List UInt8) : List UInt8 :=
  percentDecode ((written.takeWhile (· != 0x26)).map plusToBlank)

theorem formValue_eq (written : String) :
    formValue written = ofUtf8 (formOctets (toUtf8 written)) := rfl

@[simp]
theorem formOctets_nil : formOctets [] = [] := rfl

/-- An ampersand ends a value. -/
theorem formOctets_ampersand (rest : List UInt8) : formOctets (0x26 :: rest) = [] := rfl

/-- An octet other than a percent sign stands for itself. -/
theorem percentDecode_cons {octet : UInt8} (h : octet ≠ 0x25) (rest : List UInt8) :
    percentDecode (octet :: rest) = octet :: percentDecode rest := by
  rw [percentDecode.eq_2 octet rest fun _ _ _ heq _ => h heq]

/-- A percent sign and two digits stand for one octet. -/
theorem percentDecode_escape {high low : UInt8} {h l : Nat} (hhigh : hexOctetValue? high = some h)
    (hlow : hexOctetValue? low = some l) (rest : List UInt8) :
    percentDecode (0x25 :: high :: low :: rest) = UInt8.ofNat (16 * h + l) :: percentDecode rest := by
  rw [percentDecode, hhigh, hlow]

/-- A percent sign without two digits behind it stands for itself. -/
theorem percentDecode_unescaped {high low : UInt8}
    (h : ∀ m n, hexOctetValue? high = some m → hexOctetValue? low = some n → False)
    (rest : List UInt8) :
    percentDecode (0x25 :: high :: low :: rest) = 0x25 :: percentDecode (high :: low :: rest) := by
  rw [percentDecode.eq_1]
  split
  · exact (h _ _ ‹_› ‹_›).elim
  · rfl

theorem formOctets_cons {octet : UInt8} (hend : octet ≠ 0x26) (hescape : octet ≠ 0x25)
    (rest : List UInt8) : formOctets (octet :: rest) = plusToBlank octet :: formOctets rest := by
  have hkept : plusToBlank octet ≠ 0x25 := by
    unfold plusToBlank
    split
    · decide
    · exact hescape
  rw [formOctets, List.takeWhile_cons_of_pos (by simpa using hend), List.map_cons,
    percentDecode_cons hkept]
  rfl

/-- An escape stands for one octet. -/
theorem formOctets_escape {high low : Char} {h l : Nat} (hhigh : hexValue? high = some h)
    (hlow : hexValue? low = some l) (rest : List UInt8) :
    formOctets (0x25 :: UInt8.ofNat high.toNat :: UInt8.ofNat low.toNat :: rest) =
      UInt8.ofNat (16 * h + l) :: formOctets rest := by
  have hdigit : ∀ {c : Char} {n : Nat}, hexValue? c = some n →
      (UInt8.ofNat c.toNat).toNat = c.toNat ∧ UInt8.ofNat c.toNat ≠ 0x26 ∧
        plusToBlank (UInt8.ofNat c.toNat) = UInt8.ofNat c.toNat := by
    intro c n hc
    have hrange := toNat_of_hexValue? (Option.isSome_of_eq_some hc)
    have hoctet : (UInt8.ofNat c.toNat).toNat = c.toNat := toNat_octet (by omega)
    have hne : ∀ other : UInt8, other.toNat < 48 → UInt8.ofNat c.toNat ≠ other := by
      rintro other hother rfl
      omega
    exact ⟨hoctet, hne _ (by decide), if_neg (hne _ (by decide))⟩
  obtain ⟨hhighNat, hhighEnd, hhighPlus⟩ := hdigit hhigh
  obtain ⟨hlowNat, hlowEnd, hlowPlus⟩ := hdigit hlow
  have hhighValue : hexOctetValue? (UInt8.ofNat high.toNat) = some h := by
    rw [hexOctetValue?, hhighNat, Char.ofNat_toNat, hhigh]
  have hlowValue : hexOctetValue? (UInt8.ofNat low.toNat) = some l := by
    rw [hexOctetValue?, hlowNat, Char.ofNat_toNat, hlow]
  rw [formOctets, List.takeWhile_cons_of_pos (by decide),
    List.takeWhile_cons_of_pos (by simpa using hhighEnd),
    List.takeWhile_cons_of_pos (by simpa using hlowEnd), List.map_cons, List.map_cons, List.map_cons,
    hhighPlus, hlowPlus, show plusToBlank 0x25 = 0x25 from rfl,
    percentDecode_escape hhighValue hlowValue]
  rfl

/-! ## Counting characters -/

section Count

variable {mark : Nat → Bool}

/-- Where percent signs are marked, an escape stands for no more marked octets than it has. -/
theorem countP_percentDecode_le (percent : mark 0x25 = true) (written : List UInt8) :
    (percentDecode written).countP (fun octet => mark octet.toNat) ≤
      written.countP fun octet => mark octet.toNat := by
  induction written using percentDecode.induct with
  | case1 high low rest l h hlow hhigh ih =>
    have hpercent : mark (0x25 : UInt8).toNat = true := percent
    -- The octet that is made takes the place of the percent sign.
    rw [percentDecode_escape hhigh hlow, List.countP_cons, List.countP_cons, List.countP_cons,
      List.countP_cons, if_pos hpercent]
    split <;> omega
  | case2 high low rest hdigits ih =>
    rw [percentDecode_unescaped hdigits, List.countP_cons, List.countP_cons]
    exact Nat.add_le_add_right ih _
  | case3 octet rest hescape ih =>
    rw [percentDecode.eq_2 octet rest hescape, List.countP_cons, List.countP_cons]
    exact Nat.add_le_add_right ih _
  | case4 => exact Nat.le_refl 0

/-- Where percent signs are marked and blanks are not, a value has no more marked octets than are
written. -/
theorem countP_formOctets_le (percent : mark 0x25 = true) (blank : mark 0x20 = false)
    (written : List UInt8) :
    (formOctets written).countP (fun octet => mark octet.toNat) ≤
      written.countP fun octet => mark octet.toNat := by
  have hplus : ∀ octet : UInt8, mark (plusToBlank octet).toNat = true → mark octet.toNat = true := by
    intro octet hmark
    unfold plusToBlank at hmark
    split at hmark
    · have hblank : mark (0x20 : UInt8).toNat = false := blank
      rw [hblank] at hmark
      cases hmark
    · exact hmark
  calc (formOctets written).countP (fun octet => mark octet.toNat)
      ≤ ((written.takeWhile (· != 0x26)).map plusToBlank).countP (fun octet => mark octet.toNat) :=
        countP_percentDecode_le percent _
    _ = (written.takeWhile (· != 0x26)).countP (fun octet => mark (plusToBlank octet).toNat) :=
        List.countP_map
    _ ≤ (written.takeWhile (· != 0x26)).countP (fun octet => mark octet.toNat) :=
        List.countP_mono_left fun octet _ => hplus octet
    _ ≤ written.countP (fun octet => mark octet.toNat) :=
        (List.takeWhile_sublist _).countP_le

/-- Where percent signs and all that is beyond ASCII are marked and blanks are not, the value of an
ASCII text has no more marked characters than the text. -/
theorem countP_formValue_le (beyond : ∀ n, 0x80 ≤ n → mark n = true) (percent : mark 0x25 = true)
    (blank : mark 0x20 = false) {written : List Char} (ascii : ∀ c ∈ written, c.toNat < 0x80) :
    (formValue (String.ofList written)).toList.countP (fun c => mark c.toNat) ≤
      written.countP fun c => mark c.toNat := by
  have hoctets : (toUtf8 (String.ofList written)).countP (fun octet => mark octet.toNat) =
      written.countP fun c => mark c.toNat := by
    rw [toUtf8_of_ascii ascii, List.countP_map]
    refine List.countP_congr fun c hc => ?_
    rw [Function.comp_apply, toNat_octet ((ascii c hc).trans (by decide))]
  rw [formValue_eq, ofUtf8, String.toList_ofList, ← hoctets]
  refine (countP_readOctets_le beyond none _).trans ?_
  rw [owedCharacters, Nat.zero_add]
  exact countP_formOctets_le percent blank _

end Count

end FileMarket.Text
