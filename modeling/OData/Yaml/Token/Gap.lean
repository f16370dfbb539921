/-
Gaps inside the scalars of a YAML text.

In a plain or a quoted scalar a line break with the blanks around it folds to one space, and empty
lines to line feeds.

* `Yaml.Gap`, `Yaml.Gap.text` — blanks and line breaks inside a scalar, and what they fold to;
* `Yaml.readGap` — reading a gap; `length_readGap_lt`: one that is there is not empty;
* `Yaml.Reading` — a scalar that was read.
-/

import OData.Yaml.Token.Basic

set_option relaxedAutoImplicit false
set_option autoImplicit false

namespace OData.Yaml

/-- A scalar that was read: its text, whether a line break was passed behind it, and the rest. -/
structure Reading where
  text : List Char
  passedBreak : Bool
  after : Cursor

/-- Blanks and line breaks inside a scalar. -/
structure Gap where
  /-- The blanks before any line break. -/
  spaces : List Char := []
  /-- Whether there is a line break, perhaps an escaped one. -/
  isBroken : Bool := false
  /-- The first line break, unless it is escaped. -/
  first : List Char := []
  /-- The line breaks after it. -/
  more : List Char := []

/-- What a gap stands for. -/
def Gap.text (gap : Gap) : List Char :=
  if !gap.isBroken then gap.spaces
  else if gap.first = ['\n'] then (if gap.more.isEmpty then [' '] else gap.more)
  else gap.first ++ gap.more

/-- Reads blanks and line breaks.  A tab may not stand where a line of a plain scalar is
indented. -/
def readGap (tabFrom : Option Int) (gap : Gap) (c : Cursor) : Except Problem (Gap × Cursor) :=
  match _head : c.rest with
  | [] => .ok (gap, c)
  | ch :: _ =>
    if isSpace ch then
      if gap.isBroken && ch == '\t' && tabFrom.any fun indent => (c.column : Int) < indent then
        .error .tabIndentation
      else
        readGap tabFrom (if gap.isBroken then gap else { gap with spaces := gap.spaces ++ [ch] })
          c.skip
    else if _ends : isBreak ch then
      readGap tabFrom
        (if gap.isBroken then { gap with more := gap.more ++ c.skipBreak.1 }
          else { gap with isBroken := true, first := c.skipBreak.1 })
        c.skipBreak.2
    else .ok (gap, c)
termination_by c.rest.length
decreasing_by
  · exact Cursor.length_rest_skip_lt _head
  · exact Cursor.length_rest_skipBreak_lt _head _ends

theorem length_readGap_le {tabFrom : Option Int} {gap gap' : Gap} {c after : Cursor}
    (h : readGap tabFrom gap c = .ok (gap', after)) : after.rest.length ≤ c.rest.length := by
  fun_induction readGap tabFrom gap c with
  | case1 => grind
  | case2 => simp at h
  | case3 gap c ch rest head hspace htab ih =>
    have := Cursor.length_rest_skip_lt head
    have := ih h
    omega
  | case4 gap c ch rest head hspace hbreak ih =>
    have := Cursor.length_rest_skipBreak_lt head hbreak
    have := ih h
    omega
  | case5 => grind

/-- A gap that a text goes on with is not empty. -/
theorem length_readGap_lt {tabFrom : Option Int} {gap gap' : Gap} {c after : Cursor} {ch : Char}
    {rest : List Char} (head : c.rest = ch :: rest) (hgap : isGap ch = true)
    (h : readGap tabFrom gap c = .ok (gap', after)) : after.rest.length < c.rest.length := by
  have := Cursor.length_rest_skip_lt head
  rw [readGap] at h
  split at h
  · simp_all
  · rename_i ch' rest' head'
    obtain ⟨rfl, rfl⟩ : ch = ch' ∧ rest = rest' := by simpa [head] using head'
    split at h
    · split at h
      · simp at h
      · have := length_readGap_le h
        omega
    · split at h
      · rename_i hbreak
        have := Cursor.length_rest_skipBreak_lt head hbreak
        have := length_readGap_le h
        omega
      · simp_all [isGap]

end OData.Yaml
