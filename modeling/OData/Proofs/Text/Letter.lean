/-
Letters and blanks.

Only letters change with their case, and no letter is a blank.  A character without case is therefore
only equal to itself whatever the case is, and a text can be put into lower case before or after it
is trimmed.

* `Text.toNat_toLower` — what changes with its case;
* `Text.eq_of_toLower_eq` — nothing else becomes a character that is no letter;
* `Text.trim_lower` — **trimming does not depend on the case of letters**.
-/

import OData.Proofs.Text.Trim
import OData.Text.Letter

set_option relaxedAutoImplicit false
set_option autoImplicit false

namespace OData.Text

/-! ### Letters -/

theorem isAlpha_iff {c : Char} :
    c.isAlpha = true ↔ 65 ≤ c.toNat ∧ c.toNat ≤ 90 ∨ 97 ≤ c.toNat ∧ c.toNat ≤ 122 := by
  delta Char.isAlpha Char.isUpper Char.isLower
  simp [UInt32.le_iff_toNat_le]

/-- Upper case becomes lower case, and nothing else changes. -/
theorem toNat_toLower (c : Char) :
    c.toLower.toNat = if 65 ≤ c.toNat ∧ c.toNat ≤ 90 then c.toNat + 32 else c.toNat := by
  delta Char.toLower
  split
  · next hupper =>
    have hc : 65 ≤ c.toNat ∧ c.toNat ≤ 90 := by simpa [UInt32.le_iff_toNat_le] using hupper
    rw [if_pos hc]
    show (c.toNat + 32) % 2 ^ 32 = c.toNat + 32
    omega
  · next hupper =>
    have hc : ¬ (65 ≤ c.toNat ∧ c.toNat ≤ 90) := by simpa [UInt32.le_iff_toNat_le] using hupper
    rw [if_neg hc]

theorem isAlpha_toLower (c : Char) : c.toLower.isAlpha = c.isAlpha := by
  rw [Bool.eq_iff_iff, isAlpha_iff, isAlpha_iff, toNat_toLower]
  split <;> omega

/-- Only letters change with their case. -/
theorem toLower_eq_self {c : Char} (h : c.isAlpha = false) : c.toLower = c := by
  rw [← Bool.not_eq_true, isAlpha_iff] at h
  refine Char.toNat_inj.1 ?_
  rw [toNat_toLower, if_neg (by omega)]

/-- Nothing else becomes a character that is no letter. -/
theorem eq_of_toLower_eq {c d : Char} (hd : d.isAlpha = false) (h : c.toLower = d) : c = d := by
  have halpha : c.isAlpha = false := by rwa [← isAlpha_toLower, h]
  rwa [toLower_eq_self halpha] at h

theorem isBlank_of_isAlpha {c : Char} (h : c.isAlpha = true) : isBlank c = false := by
  rw [isAlpha_iff] at h
  simp only [isBlank, Bool.or_eq_false_iff, Bool.and_eq_false_iff, decide_eq_false_iff_not,
    beq_eq_false_iff_ne]
  omega

@[simp] theorem isBlank_toLower (c : Char) : isBlank c.toLower = isBlank c := by
  cases h : c.isAlpha with
  | false => rw [toLower_eq_self h]
  | true =>
      have hlower : c.toLower.isAlpha = true := by rwa [isAlpha_toLower]
      rw [isBlank_of_isAlpha h, isBlank_of_isAlpha hlower]

/-! ### Texts -/

theorem dropWhile_isBlank_lower (cs : List Char) :
    (lower cs).dropWhile isBlank = lower (cs.dropWhile isBlank) := by
  have hblank : isBlank ∘ Char.toLower = isBlank := funext isBlank_toLower
  rw [lower, List.dropWhile_map, hblank, lower]

/-- **Trimming does not depend on the case of letters.** -/
theorem trim_lower (cs : List Char) : trim (lower cs) = lower (trim cs) := by
  have hreverse : ∀ cs, (lower cs).reverse = lower cs.reverse := fun cs => List.map_reverse.symm
  rw [trim, trimStart, dropWhile_isBlank_lower, trimEnd, hreverse, dropWhile_isBlank_lower,
    hreverse, trim, trimEnd, trimStart]

end OData.Text
