/-
Plain scalars of a YAML text.

A plain scalar ends before a comment, a colon with a gap behind it, or a line that is not indented
enough; inside brackets also before any of their punctuation.

* `Yaml.stopsPlain`, `Yaml.plainRun` — where a plain scalar stops, and what it has up to there;
* `Yaml.readPlain` — a plain scalar; `length_readPlain_lt`: it is not empty.
-/

import OData.Yaml.Token.Gap

set_option relaxedAutoImplicit false
set_option autoImplicit false

namespace OData.Yaml

/-- Whether a character is punctuation inside brackets. -/
def isFlowPunctuation (c : Char) : Bool := ",[]\x7b\x7d".toList.contains c

/-- Whether a plain scalar stops before a text: a colon with a gap behind it, or punctuation inside
brackets. -/
def stopsPlain (inFlow : Bool) : List Char → Bool
  | [] => true
  | ch :: rest => isGap ch || (ch == ':' && startsWithGap rest) || (inFlow && isFlowPunctuation ch)

/-- Whether a text goes on with a colon that a plain scalar inside brackets cannot have. -/
def isStrayColon (inFlow : Bool) : List Char → Bool
  | ':' :: next :: _ => inFlow && (next == '?' || isFlowPunctuation next)
  | _ => false

/-- The characters of a plain scalar up to a gap or its end. -/
def plainRun (inFlow : Bool) : List Char → Except Problem (List Char)
  | [] => .ok []
  | ch :: rest =>
    if isGap ch then .ok []
    else if isStrayColon inFlow (ch :: rest) then .error .strayColon
    else if stopsPlain inFlow (ch :: rest) then .ok []
    else do
      let run ← plainRun inFlow rest
      pure (ch :: run)

/-- A plain scalar has at least the character that it does not stop before. -/
theorem plainRun_ne_nil {inFlow : Bool} {cs run : List Char} (hstop : stopsPlain inFlow cs = false)
    (h : plainRun inFlow cs = .ok run) : run ≠ [] := by
  cases cs with
  | nil => simp [stopsPlain] at hstop
  | cons ch cs =>
    have hgap : isGap ch = false := by grind [stopsPlain]
    simp only [plainRun, hgap, hstop, Bool.false_eq_true, if_false] at h
    split at h
    · simp at h
    · obtain ⟨run', _, heq⟩ := bind_eq_ok.1 h
      simp [← pure_eq_ok.1 heq]

/-- A text with a gap, and what both become with a run behind the gap.  An empty run leaves the gap
open. -/
def joinRun (text : List Char) (gap : Gap) (run : List Char) : List Char × Gap :=
  if run.isEmpty then (text, gap) else (text ++ gap.text ++ run, {})

/-- Reads a plain scalar from its first character on.  `indent` is the column that its further lines
must reach outside brackets. -/
def readPlain (inFlow : Bool) (indent : Int) (text : List Char) (gap : Gap) (c : Cursor) :
    Except Problem Reading :=
  if c.atDocumentMark || c.rest.head? == some '#' then .ok ⟨text, gap.isBroken, c⟩
  else do
    let run ← plainRun inFlow c.rest
    let joined := joinRun text gap run
    match _head : (c.skipMany run.length).rest with
    | [] => .ok ⟨joined.1, joined.2.isBroken, c.skipMany run.length⟩
    | ch :: _ =>
      if _gap : isGap ch then do
        let ⟨(gap, after), _read⟩ ← attach (readGap (some indent) joined.2 (c.skipMany run.length))
        if !inFlow && (after.column : Int) < indent then .ok ⟨joined.1, gap.isBroken, after⟩
        else readPlain inFlow indent joined.1 gap after
      else .ok ⟨joined.1, joined.2.isBroken, c.skipMany run.length⟩
termination_by c.rest.length
decreasing_by
  have := length_readGap_lt _head _gap _read
  have := c.length_rest_skipMany_le run.length
  omega

theorem length_readPlain_le {inFlow : Bool} {indent : Int} {text : List Char} {gap : Gap}
    {c : Cursor} {reading : Reading} (h : readPlain inFlow indent text gap c = .ok reading) :
    reading.after.rest.length ≤ c.rest.length := by
  rw [readPlain] at h
  split at h
  · grind
  · obtain ⟨run, -, h⟩ := bind_eq_ok.1 h
    have := c.length_rest_skipMany_le run.length
    split at h
    · grind
    · rename_i head
      split at h
      · rename_i hgap
        obtain ⟨⟨⟨gap', after⟩, hread⟩, -, h⟩ := bind_eq_ok.1 h
        have := length_readGap_lt head hgap hread
        dsimp only at h
        split at h
        · grind
        · have := length_readPlain_le h
          omega
      · grind
termination_by c.rest.length

/-- A plain scalar is not empty, if the text begins with one. -/
theorem length_readPlain_lt {inFlow : Bool} {indent : Int} {text : List Char} {gap : Gap}
    {c : Cursor} {reading : Reading} (hmark : c.atDocumentMark = false)
    (hcomment : c.rest.head? ≠ some '#') (hstop : stopsPlain inFlow c.rest = false)
    (h : readPlain inFlow indent text gap c = .ok reading) :
    reading.after.rest.length < c.rest.length := by
  cases hrest : c.rest with
  | nil => simp [hrest, stopsPlain] at hstop
  | cons ch rest =>
    rw [readPlain, if_neg (by simpa [hmark] using hcomment)] at h
    obtain ⟨run, hrun, h⟩ := bind_eq_ok.1 h
    have hlt := Cursor.length_rest_skipMany_lt
      (List.length_pos_iff.2 (plainRun_ne_nil hstop hrun)) hrest
    rw [hrest] at hlt
    split at h
    · grind
    · rename_i head
      split at h
      · rename_i hgap
        obtain ⟨⟨⟨gap', after⟩, hread⟩, -, h⟩ := bind_eq_ok.1 h
        have := length_readGap_lt head hgap hread
        dsimp only at h
        split at h
        · grind
        · have := length_readPlain_le h
          omega
      · grind

end OData.Yaml
