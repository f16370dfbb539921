/-
Block scalars of a YAML text.

A block scalar keeps its lines, indented by at least as much as its first one, and folds them only
if its header says so.  The header may also give the indentation, and what becomes of the line
breaks at the end.

* `Yaml.Chomping`, `Yaml.readBlockHeader` — the header;
* `Yaml.readBlockGap`, `Yaml.readBlockLines` — empty lines, and lines with a text;
* `Yaml.readBlock` — a block scalar.
-/

import OData.Yaml.Token.Gap

set_option relaxedAutoImplicit false
set_option autoImplicit false

namespace OData.Yaml

/-- What becomes of the line breaks at the end of a block scalar. -/
inductive Chomping where
  /-- All of them are dropped. -/
  | strip
  /-- One is kept. -/
  | clip
  /-- All of them are kept. -/
  | keep
deriving DecidableEq

/-- The chomping that a character indicates. -/
def chomping? : Char → Option Chomping
  | '+' => some .keep
  | '-' => some .strip
  | _ => none

/-- Reads the indicators behind the one that begins a block scalar: chomping and indentation, in
either order. -/
def readBlockHeader (c : Cursor) : Except Problem (Chomping × Nat × Cursor) :=
  match c.rest with
  | [] => .ok (.clip, 0, c)
  | a :: rest =>
    match chomping? a with
    | some chomping =>
      match rest with
      | d :: _ =>
        if d.isDigit then
          if d == '0' then .error .badBlockHeader
          else .ok (chomping, d.toNat - '0'.toNat, c.skip.skip)
        else .ok (chomping, 0, c.skip)
      | [] => .ok (chomping, 0, c.skip)
    | none =>
      if a.isDigit then
        if a == '0' then .error .badBlockHeader
        else
          match rest.head?.bind chomping? with
          | some chomping => .ok (chomping, a.toNat - '0'.toNat, c.skip.skip)
          | none => .ok (.clip, a.toNat - '0'.toNat, c.skip)
      else .ok (.clip, 0, c)

theorem length_readBlockHeader_le {c after : Cursor} {chomping : Chomping} {increment : Nat}
    (h : readBlockHeader c = .ok (chomping, increment, after)) :
    after.rest.length ≤ c.rest.length := by
  have : c.skip.rest.length ≤ c.rest.length := by simp
  have : c.skip.skip.rest.length ≤ c.rest.length := by simp
  grind [readBlockHeader]

/-- The number of leading spaces of a line that indent a block scalar. -/
def indentation (indent : Option Nat) (c : Cursor) : Nat :=
  let spaces := c.rest.takeWhile (· == ' ')
  match indent with
  | none => spaces.length
  | some n => min spaces.length (n - c.column)

/-- Reads indentation and empty lines before a line of a block scalar.  As long as the indentation
is not known, all leading spaces count, and the greatest number of them is returned. -/
def readBlockGap (indent : Option Nat) (deepest : Nat) (breaks : List Char) (c : Cursor) :
    Except Problem (Nat × List Char × Cursor) :=
  let count := indentation indent c
  let deepest := max deepest (c.skipMany count).column
  match _head : (c.skipMany count).rest with
  | [] => .ok (deepest, breaks, c.skipMany count)
  | ch :: _ =>
    if ch == '\t' && indent.all fun n => (c.skipMany count).column < n then
      .error .tabIndentation
    else if _ends : isBreak ch then
      readBlockGap indent deepest (breaks ++ (c.skipMany count).skipBreak.1)
        (c.skipMany count).skipBreak.2
    else .ok (deepest, breaks, c.skipMany count)
termination_by c.rest.length
decreasing_by
  exact Nat.lt_of_lt_of_le (Cursor.length_rest_skipBreak_lt _head _ends)
    (c.length_rest_skipMany_le _)

theorem length_readBlockGap_le {indent : Option Nat} {deepest deepest' : Nat}
    {breaks breaks' : List Char} {c after : Cursor}
    (h : readBlockGap indent deepest breaks c = .ok (deepest', breaks', after)) :
    after.rest.length ≤ c.rest.length := by
  rw [readBlockGap] at h
  have := c.length_rest_skipMany_le (indentation indent c)
  split at h
  · grind
  · rename_i head
    split at h
    · simp at h
    · split at h
      · rename_i hbreak
        have := Cursor.length_rest_skipBreak_lt head hbreak
        have := length_readBlockGap_le h
        omega
      · grind
termination_by c.rest.length

/-- The state between two lines of a block scalar. -/
structure BlockState where
  text : List Char := []
  /-- The line break behind the last line. -/
  lastBreak : List Char := []
  /-- The line breaks of the empty lines behind that. -/
  emptyLines : List Char := []
  /-- Whether the last line began with a blank. -/
  wasBlank : Bool := false

/-- The state behind a further line, given its text, the break that ends it, and the breaks of the
empty lines behind that. -/
def BlockState.addLine (s : BlockState) (folded : Bool) (line lastBreak emptyLines : List Char) :
    BlockState :=
  let isBlank := line.head?.any isSpace
  let joint :=
    if folded && s.lastBreak == ['\n'] && !s.wasBlank && !isBlank then
      if s.emptyLines.isEmpty then [' '] else s.emptyLines
    else s.lastBreak ++ s.emptyLines
  ⟨s.text ++ joint ++ line, lastBreak, emptyLines, isBlank⟩

/-- Reads the lines of a block scalar. -/
def readBlockLines (folded : Bool) (indent : Nat) (s : BlockState) (c : Cursor) :
    Except Problem (BlockState × Cursor) :=
  match _head : c.rest with
  | [] => .ok (s, c)
  | _ :: _ =>
    if c.column != indent then .ok (s, c)
    else do
      let ⟨(_, emptyLines, after), _gap⟩ ←
        attach (readBlockGap (some indent) 0 [] c.takeLine.2.2)
      readBlockLines folded indent (s.addLine folded c.takeLine.1 c.takeLine.2.1 emptyLines) after
termination_by c.rest.length
decreasing_by
  exact Nat.lt_of_le_of_lt (length_readBlockGap_le _gap) (Cursor.length_rest_takeLine_lt _head)

theorem length_readBlockLines_le {folded : Bool} {indent : Nat} {s s' : BlockState}
    {c after : Cursor} (h : readBlockLines folded indent s c = .ok (s', after)) :
    after.rest.length ≤ c.rest.length := by
  rw [readBlockLines] at h
  split at h
  · grind
  · rename_i head
    split at h
    · grind
    · obtain ⟨⟨⟨_, emptyLines, stop⟩, hgap⟩, -, h⟩ := bind_eq_ok.1 h
      have := length_readBlockGap_le hgap
      have := Cursor.length_rest_takeLine_lt head
      have := length_readBlockLines_le h
      omega
termination_by c.rest.length

/-- Reads a block scalar behind its indicator.  `parent` is the indentation of the block around
it. -/
def readBlock (folded : Bool) (parent : Int) (c : Cursor) : Except Problem Reading := do
  let (chomping, increment, c) ← readBlockHeader c
  let c ← c.skipLineEnd .badBlockHeader
  let declared := if increment = 0 then none else some ((max parent 0).toNat + increment)
  let (deepest, emptyLines, c) ← readBlockGap declared 0 [] c
  let indent := declared.getD (max (max deepest (parent + 1).toNat) 1)
  let (s, c) ← readBlockLines folded indent { emptyLines } c
  let tail := match chomping with
    | .strip => []
    | .clip => s.lastBreak
    | .keep => s.lastBreak ++ s.emptyLines
  return ⟨s.text ++ tail, true, c⟩

theorem length_readBlock_le {folded : Bool} {parent : Int} {c : Cursor} {reading : Reading}
    (h : readBlock folded parent c = .ok reading) : reading.after.rest.length ≤ c.rest.length := by
  obtain ⟨⟨chomping, increment, header⟩, hheader, h⟩ := bind_eq_ok.1 h
  obtain ⟨line, hline, h⟩ := bind_eq_ok.1 h
  obtain ⟨⟨deepest, emptyLines, first⟩, hfirst, h⟩ := bind_eq_ok.1 h
  obtain ⟨⟨s, after⟩, hlines, h⟩ := bind_eq_ok.1 h
  obtain rfl := pure_eq_ok.1 h
  have := length_readBlockHeader_le hheader
  have := Cursor.length_skipLineEnd_le hline
  have := length_readBlockGap_le hfirst
  have := length_readBlockLines_le hlines
  dsimp only
  omega

end OData.Yaml
