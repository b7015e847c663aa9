import FileMarket.Proofs.Text.Ascii
import FileMarket.Proofs.Text.Blank
import Mathlib

/-!
# The case of ASCII letters

Making capitals small changes letters only. So it moves no sign (`mem_map_toLower_iff`) and no
blank, and a text can be trimmed before or after it (`trimChars_map_toLower`).
-/

set_option autoImplicit false

namespace FileMarket.Text

theorem sameAscii_iff {s t : String} :
    sameAscii s t = true ↔ s.toList.map Char.toLower = t.toList.map Char.toLower := by
  rw [sameAscii, beq_iff_eq, lowerAscii, lowerAscii]
  exact String.ofList_inj

theorem toLower_eq_of_not_isAlpha {c : Char} (h : c.isAlpha = false) : c.toLower = c := by
  refine Char.toLower_eq_of_not_isUpper fun hupper => ?_
  rw [Char.isAlpha, hupper, Bool.true_or] at h
  cases h

/-- A character that is no letter stands in a text whatever the case of the letters. -/
theorem mem_map_toLower_iff {c : Char} (h : c.isAlpha = false) {s : List Char} :
    c ∈ s.map Char.toLower ↔ c ∈ s := by
  rw [List.mem_map]
  constructor
  · rintro ⟨d, hd, hcase⟩
    have hsign : d.isAlpha = false := by rw [← Char.isAlpha_toLower_eq_isAlpha, hcase, h]
    rw [toLower_eq_of_not_isAlpha hsign] at hcase
    exact hcase ▸ hd
  · exact fun hc => ⟨c, hc, toLower_eq_of_not_isAlpha h⟩

theorem isBlank_of_isAlpha {c : Char} (h : c.isAlpha = true) : isBlank c = false := by
  have hranges := toNat_of_isAlphanum (c := c) (by rw [Char.isAlphanum, h, Bool.true_or])
  exact isBlank_of_visible (by omega) (by omega)

theorem isBlank_toLower (c : Char) : isBlank c.toLower = isBlank c := by
  cases h : c.isAlpha with
  | false => rw [toLower_eq_of_not_isAlpha h]
  | true =>
    have hsmall : c.toLower.isAlpha = true := by rw [Char.isAlpha_toLower_eq_isAlpha, h]
    rw [isBlank_of_isAlpha h, isBlank_of_isAlpha hsmall]

/-- The blanks around a text are the same whatever the case of its letters. -/
theorem trimChars_map_toLower (s : List Char) :
    trimChars (s.map Char.toLower) = (trimChars s).map Char.toLower := by
  have hblank : isBlank ∘ Char.toLower = isBlank := funext isBlank_toLower
  rw [trimChars, trimStartChars, trimEndChars, List.dropWhile_map, hblank, ← List.map_reverse,
    List.dropWhile_map, hblank, ← List.map_reverse]
  rfl

end FileMarket.Text
