import FileMarket.Proofs.Calendar.Print
import FileMarket.Wire.Lenient

/-!
# Laws of lenient attributes

What an attribute can be read as, and which values are read back from the form they are written in:
a text that is trimmed and not blank, a count, an amount, and every date. What is read is always of
that kind, whatever the value was.
-/

set_option autoImplicit false

namespace FileMarket.Wire

open FileMarket.Text

/-- A text without blanks at its ends in which something is left. -/
structure IsTidy (s : String) : Prop where
  trim_eq : trim s = s
  not_blank : allBlank s = false

theorem IsTidy.ne_empty {s : String} (h : IsTidy s) : s ≠ "" := by
  rintro rfl
  cases h.not_blank

/-- A text is cut down to what is between its blanks. -/
theorem text?_text (s : String) :
    text? (.text s) = if (trim s).isEmpty then none else some (trim s) := rfl

theorem text?_text_of_isTidy {s : String} (h : IsTidy s) : text? (.text s) = some s := by
  rw [text?_text, h.trim_eq, if_neg (by simpa using h.ne_empty)]

/-- What is read as a text is tidy. -/
theorem isTidy_of_text? {value : Json} {s : String} (h : text? value = some s) : IsTidy s := by
  obtain ⟨shown, -, hcut⟩ := Option.bind_eq_some_iff.1 h
  obtain ⟨hne, heq⟩ := Option.ite_none_left_eq_some.1 hcut
  obtain rfl := Option.some.inj heq
  exact ⟨trim_trim shown, allBlank_trim (by simpa using hne)⟩

/-- A name, for which nothing is read as the empty text. -/
theorem getD_text?_text {s : String} (h : trim s = s) : (text? (.text s)).getD "" = s := by
  rw [text?_text, h]
  split
  · rename_i hempty
    rw [String.isEmpty_iff.1 hempty]
    rfl
  · rfl

theorem trim_getD_text? (value : Json) : trim ((text? value).getD "") = (text? value).getD "" := by
  cases h : text? value with
  | none => rfl
  | some s => exact (isTidy_of_text? h).trim_eq

theorem date?_print (d : Date) : date? (.text d.print) = some d := d.parse?_print

theorem amount?_real {x : Binary64} (h : x.isAmount = true) :
    amount? (.number (.real x)) = some x :=
  Option.filter_eq_some_iff.2 ⟨rfl, h⟩

/-- What is read as an amount is one. -/
theorem isAmount_of_amount? {value : Json} {x : Binary64} (h : amount? value = some x) :
    x.isAmount = true :=
  (Option.filter_eq_some_iff.1 h).2

end FileMarket.Wire
