/-
White space, and text without the white space around it.

`Text.isBlank` is the Unicode property `White_Space`: it holds of NO-BREAK SPACE, NEXT LINE and the
line and paragraph separators as well as of the blanks of ASCII, and it does not hold of ZERO WIDTH
SPACE.  Every place of the library that says "trimmed" means this set.

* `Text.isBlank` — the class of characters;
* `Text.trimStart`, `Text.trimEnd`, `Text.trim` — a text without the blanks at its ends;
* `Text.IsTrimmed` — there are no such blanks; `Text.IsTrimmed.trim_eq` — then trimming does nothing;
* `Text.sublist_trim` — trimming only takes characters away, on which the termination of expansion
  rests.
-/

set_option relaxedAutoImplicit false
set_option autoImplicit false

namespace OData.Text

/-- The code points with the Unicode property `White_Space`. -/
def isBlank (c : Char) : Bool :=
  let n := c.toNat
  (9 ≤ n && n ≤ 13) || n == 0x20 || n == 0x85 || n == 0xA0 || n == 0x1680 ||
    (0x2000 ≤ n && n ≤ 0x200A) || n == 0x2028 || n == 0x2029 || n == 0x202F || n == 0x205F ||
    n == 0x3000

/-! ### Trimming -/

/-- A text without its leading blanks. -/
def trimStart (cs : List Char) : List Char := cs.dropWhile isBlank

/-- A text without its trailing blanks. -/
def trimEnd (cs : List Char) : List Char := (cs.reverse.dropWhile isBlank).reverse

/-- A text without the blanks at either end. -/
def trim (cs : List Char) : List Char := trimEnd (trimStart cs)

@[simp] theorem trimStart_nil : trimStart [] = [] := rfl

@[simp] theorem trimEnd_nil : trimEnd [] = [] := rfl

@[simp] theorem trim_nil : trim [] = [] := rfl

theorem sublist_trimStart (cs : List Char) : (trimStart cs).Sublist cs :=
  List.dropWhile_sublist isBlank

theorem sublist_trimEnd (cs : List Char) : (trimEnd cs).Sublist cs := by
  simpa [trimEnd] using (List.dropWhile_sublist (l := cs.reverse) isBlank).reverse

theorem sublist_trim (cs : List Char) : (trim cs).Sublist cs :=
  (sublist_trimEnd _).trans (sublist_trimStart _)

/-! ### Texts without blanks around them -/

/-- A text that neither begins nor ends with a blank. -/
structure IsTrimmed (cs : List Char) : Prop where
  first : ∀ c ∈ cs.head?, isBlank c = false
  last : ∀ c ∈ cs.getLast?, isBlank c = false

theorem isTrimmed_iff {cs : List Char} :
    IsTrimmed cs ↔ cs.head?.any isBlank = false ∧ cs.getLast?.any isBlank = false := by
  constructor
  · rintro ⟨hfirst, hlast⟩
    cases hh : cs.head? <;> cases hl : cs.getLast? <;> simp_all
  · rintro ⟨hfirst, hlast⟩
    exact ⟨fun c hc => by simpa [Option.mem_def.1 hc] using hfirst,
      fun c hc => by simpa [Option.mem_def.1 hc] using hlast⟩

instance (cs : List Char) : Decidable (IsTrimmed cs) := decidable_of_iff' _ isTrimmed_iff

namespace IsTrimmed

theorem nil : IsTrimmed [] := ⟨by simp, by simp⟩

/-- Only the two ends of a text matter. -/
theorem between {a b : List Char} (ha : IsTrimmed a) (hane : a ≠ []) (hb : IsTrimmed b)
    (hbne : b ≠ []) (m : List Char) : IsTrimmed (a ++ m ++ b) where
  first c hc := by
    cases a with
    | nil => exact absurd rfl hane
    | cons x a => exact ha.first c (by simpa using hc)
  last c hc := by
    rw [List.getLast?_append, Option.or_of_isSome (by simpa using hbne)] at hc
    exact hb.last c hc

theorem trimStart_eq {cs : List Char} (h : IsTrimmed cs) : trimStart cs = cs := by
  cases cs with
  | nil => rfl
  | cons c cs => simp [trimStart, h.first c rfl]

theorem trimEnd_eq {cs : List Char} (h : IsTrimmed cs) : trimEnd cs = cs := by
  cases hr : cs.reverse with
  | nil => simp [List.reverse_eq_nil_iff.1 hr]
  | cons c rest =>
    have hc := h.last c (by rw [List.getLast?_eq_head?_reverse, hr]; rfl)
    rw [trimEnd, hr, List.dropWhile_cons_of_neg (by simp [hc]), ← hr, List.reverse_reverse]

/-- Such a text is not changed by trimming. -/
theorem trim_eq {cs : List Char} (h : IsTrimmed cs) : trim cs = cs := by
  rw [trim, h.trimStart_eq, h.trimEnd_eq]

end IsTrimmed

end OData.Text
