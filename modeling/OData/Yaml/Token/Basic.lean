/-
The tokens of a YAML text.

Indentation is a token here: where a block of items or members begins and ends, a token says so, and
a key is announced before it even where the text only shows the colon behind it.

* `Yaml.Style`, `Yaml.Token` — the tokens;
* `Yaml.Position`, `Yaml.Cursor` — a place in the text, and the text from there on;
* `Yaml.Cursor.skip`, `Cursor.skipBreak`, `Cursor.skipWhile`, `Cursor.takeLine` — moving on, which
  never lengthens the text that is left.
-/

import OData.Yaml.Character
import OData.Yaml.Tag

set_option relaxedAutoImplicit false
set_option autoImplicit false

namespace OData.Yaml

/-- How a scalar is written. -/
inductive Style where
  | plain
  | singleQuoted
  | doubleQuoted
  | literal
  | folded
deriving DecidableEq, Repr

/-- A token. -/
inductive Token where
  /-- The version line of a document. -/
  | version (major minor : Nat)
  /-- A line that declares a tag handle. -/
  | handle (handle : String) (start : TagText)
  | documentStart
  | documentEnd
  | sequenceStart
  | mappingStart
  /-- The end of a block of items or members. -/
  | blockEnd
  | flowSequenceStart
  | flowSequenceEnd
  | flowMappingStart
  | flowMappingEnd
  /-- The dash before an item. -/
  | item
  /-- The comma between items or members in brackets. -/
  | comma
  /-- Announces a key. -/
  | key
  /-- The colon before a value. -/
  | value
  /-- An alias: another place of the node that an anchor marks. -/
  | reference (name : String)
  | anchor (name : String)
  | tag (handle : String) (suffix : TagText)
  | scalar (style : Style) (text : String)
deriving DecidableEq, Repr

/-! ### Places in the text -/

/-- A place in a text. -/
structure Position where
  /-- The number of bytes before it. -/
  index : Nat := 0
  /-- The number of lines before it. -/
  line : Nat := 0
  /-- The number of characters before it on its line. -/
  column : Nat := 0
deriving DecidableEq

/-- The rest of a text, and where it begins. -/
structure Cursor where
  rest : List Char
  position : Position := {}

namespace Position

/-- Behind a character of the same line. -/
def next (p : Position) (ch : Char) : Position :=
  { p with index := p.index + ch.utf8Size, column := p.column + 1 }

/-- Behind a line break of some bytes. -/
def nextLine (p : Position) (width : Nat) : Position := ⟨p.index + width, p.line + 1, 0⟩

end Position

namespace Cursor

/-- The column of a place. -/
def column (c : Cursor) : Nat := c.position.column

/-- One character further, if there is one. -/
def skip (c : Cursor) : Cursor :=
  match c.rest with
  | [] => c
  | ch :: rest => ⟨rest, c.position.next ch⟩

/-- Some characters further. -/
def skipMany : Nat → Cursor → Cursor
  | 0, c => c
  | n + 1, c => skipMany n c.skip

@[simp] theorem rest_skip (c : Cursor) : c.skip.rest = c.rest.drop 1 := by
  unfold skip
  split <;> simp_all

/-- Moving on shortens a text that is not empty. -/
theorem length_rest_skip_lt {c : Cursor} {ch : Char} {rest : List Char} (h : c.rest = ch :: rest) :
    c.skip.rest.length < c.rest.length := by
  simp [h]

@[simp] theorem rest_skipMany (n : Nat) (c : Cursor) : (skipMany n c).rest = c.rest.drop n := by
  induction n generalizing c with
  | zero => rfl
  | succ n ih => simp [skipMany, ih]

/-- Moving on never lengthens the text. -/
theorem length_rest_skipMany_le (n : Nat) (c : Cursor) :
    (skipMany n c).rest.length ≤ c.rest.length := by
  simp

/-- Moving on by at least one character shortens a text that is not empty. -/
theorem length_rest_skipMany_lt {n : Nat} (hn : 0 < n) {c : Cursor} {ch : Char} {rest : List Char}
    (h : c.rest = ch :: rest) : (skipMany n c).rest.length < c.rest.length := by
  simp only [rest_skipMany, h, List.length_drop, List.length_cons]
  omega

/-- Behind the line break that the text goes on with, and that break as it counts in a scalar:
the end of a line is a line feed, while the separators of lines and paragraphs stay what they
are. -/
def skipBreak (c : Cursor) : List Char × Cursor :=
  match c.rest with
  | '\r' :: '\n' :: rest => (['\n'], ⟨rest, c.position.nextLine 2⟩)
  | b :: rest =>
    if b == '\u2028' || b == '\u2029' then ([b], ⟨rest, c.position.nextLine b.utf8Size⟩)
    else if isBreak b then (['\n'], ⟨rest, c.position.nextLine b.utf8Size⟩)
    else ([], c)
  | [] => ([], c)

theorem length_rest_skipBreak_le (c : Cursor) : c.skipBreak.2.rest.length ≤ c.rest.length := by
  grind [skipBreak]

/-- A line break is not empty. -/
theorem length_rest_skipBreak_lt {c : Cursor} {ch : Char} {rest : List Char}
    (h : c.rest = ch :: rest) (hb : isBreak ch = true) :
    c.skipBreak.2.rest.length < c.rest.length := by
  grind [skipBreak]

/-- The characters that satisfy a predicate, and the text behind them.  They must not include line
breaks. -/
def takeWhile (p : Char → Bool) (c : Cursor) : List Char × Cursor :=
  let taken := c.rest.takeWhile p
  (taken, c.skipMany taken.length)

theorem length_rest_takeWhile_le (p : Char → Bool) (c : Cursor) :
    (c.takeWhile p).2.rest.length ≤ c.rest.length := by
  simp [takeWhile]

/-- Behind the characters that satisfy a predicate. -/
def skipWhile (p : Char → Bool) (c : Cursor) : Cursor := (c.takeWhile p).2

theorem length_rest_skipWhile_le (p : Char → Bool) (c : Cursor) :
    (c.skipWhile p).rest.length ≤ c.rest.length :=
  c.length_rest_takeWhile_le p

/-- The rest of a line, the break behind it, and the text behind that. -/
def takeLine (c : Cursor) : List Char × List Char × Cursor :=
  let line := c.takeWhile fun ch => !isBreak ch
  (line.1, line.2.skipBreak)

/-- A line is not empty, if its break counts. -/
theorem length_rest_takeLine_lt {c : Cursor} {ch : Char} {rest : List Char}
    (h : c.rest = ch :: rest) : c.takeLine.2.2.rest.length < c.rest.length := by
  simp only [takeLine, takeWhile]
  cases hb : isBreak ch with
  | true => simpa [h, hb, skipMany] using length_rest_skipBreak_lt h hb
  | false =>
    have := length_rest_skipBreak_le (c.skipMany (c.rest.takeWhile fun ch => !isBreak ch).length)
    have := length_rest_skipMany_lt (n := (c.rest.takeWhile fun ch => !isBreak ch).length)
      (by simp [h, hb]) h
    omega

/-- Behind the comment that the text goes on with, if it does. -/
def skipComment (c : Cursor) : Cursor :=
  match c.rest with
  | '#' :: _ => c.skipWhile fun ch => !isBreak ch
  | _ => c

theorem length_rest_skipComment_le (c : Cursor) : c.skipComment.rest.length ≤ c.rest.length := by
  unfold skipComment
  split
  · exact c.length_rest_skipWhile_le _
  · exact Nat.le_refl _

/-- Behind blanks, a comment and the end of the line; nothing else may stand there. -/
def skipLineEnd (problem : Problem) (c : Cursor) : Except Problem Cursor :=
  let c := (c.skipWhile isSpace).skipComment
  if startsWithBreak c.rest then .ok c.skipBreak.2 else .error problem

theorem length_skipLineEnd_le {problem : Problem} {c after : Cursor}
    (h : c.skipLineEnd problem = .ok after) : after.rest.length ≤ c.rest.length := by
  have := length_rest_skipBreak_le (c.skipWhile isSpace).skipComment
  have := length_rest_skipComment_le (c.skipWhile isSpace)
  have := c.length_rest_skipWhile_le isSpace
  grind [skipLineEnd]

/-- Whether the line begins with three dashes or three dots that stand alone. -/
def atDocumentMark (c : Cursor) : Bool :=
  c.column == 0 &&
    match c.rest with
    | '-' :: '-' :: '-' :: rest => startsWithGap rest
    | '.' :: '.' :: '.' :: rest => startsWithGap rest
    | _ => false

end Cursor

end OData.Yaml
