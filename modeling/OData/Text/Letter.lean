/-
Comparison that ignores the case of the letters of ASCII.

Option names, header names and selected paths are matched without regard to case, but only the
twenty-six letters of ASCII have a case here: `É` and `é` stay apart, and so do `K` and the Kelvin
sign.

* `Text.lower` — a text with its ASCII letters in lower case;
* `Text.sameLetters` — equality up to that.
-/

set_option relaxedAutoImplicit false
set_option autoImplicit false

namespace OData.Text

/-- A text with the letters of ASCII in lower case. -/
def lower (cs : List Char) : List Char := cs.map Char.toLower

/-- Whether two texts differ at most in the case of letters of ASCII. -/
def sameLetters (a b : List Char) : Bool := lower a == lower b

@[simp] theorem lower_nil : lower [] = [] := rfl

@[simp] theorem lower_append (a b : List Char) : lower (a ++ b) = lower a ++ lower b := by
  simp [lower]

theorem sameLetters_iff {a b : List Char} : sameLetters a b = true ↔ lower a = lower b := by
  simp [sameLetters]

@[simp] theorem sameLetters_refl (a : List Char) : sameLetters a a = true := by
  simp [sameLetters]

end OData.Text
