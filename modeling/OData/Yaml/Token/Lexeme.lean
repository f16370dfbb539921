/-
The next thing in a YAML text.

What stands at a place is found from the text alone, and from whether the place is inside brackets
and how far the block around it is indented.  What it means for the blocks and keys of the text is
not decided here.

* `Yaml.Lexeme` — what can stand at a place, sorted by what it does to the layout;
* `Yaml.readLexeme` — what stands at a place, and the place behind it;
* `Yaml.length_readLexeme_lt` — a lexeme is not empty.
-/

import OData.Yaml.Token.Block
import OData.Yaml.Token.Plain
import OData.Yaml.Token.Property
import OData.Yaml.Token.Quoted

set_option relaxedAutoImplicit false
set_option autoImplicit false

namespace OData.Yaml

/-- What stands at a place of a text. -/
inductive Lexeme where
  /-- A line of its own: a directive, or the mark of the beginning or the end of a document. -/
  | line (token : Token)
  | opening (token : Token)
  | closing (token : Token)
  | comma
  /-- The dash before an item. -/
  | item
  /-- The question mark before a key. -/
  | key
  /-- The colon before a value. -/
  | value
  /-- A token that may begin a key, and whether another key may begin right behind it. -/
  | inline (token : Token) (keyBehind : Bool)
  /-- A block scalar. -/
  | block (token : Token)
deriving DecidableEq, Repr

/-! ### Signs -/

/-- The lexeme of a single character.  A dash has to stand alone, and outside brackets so do a
question mark and a colon. -/
def sign? (inFlow isAlone : Bool) (c : Char) : Option Lexeme :=
  if c == '[' then some (.opening .flowSequenceStart)
  else if c == '\x7b' then some (.opening .flowMappingStart)
  else if c == ']' then some (.closing .flowSequenceEnd)
  else if c == '\x7d' then some (.closing .flowMappingEnd)
  else if c == ',' then some .comma
  else if c == '-' && isAlone then some .item
  else if c == '?' && (inFlow || isAlone) then some .key
  else if c == ':' && (inFlow || isAlone) then some .value
  else none

/-! ### Scalars -/

/-- A scalar token. -/
def scalarOf (style : Style) (reading : Reading) : Token :=
  .scalar style (String.ofList reading.text)

/-- A scalar in quotes, from its opening quote on. -/
def readQuotedLexeme (single : Bool) (c : Cursor) : Except Problem (Lexeme × Cursor) := do
  let reading ← readQuoted single [] c.skip
  let style : Style := if single then .singleQuoted else .doubleQuoted
  return (.inline (scalarOf style reading) false, reading.after)

/-- A block scalar, from its indicator on. -/
def readBlockLexeme (folded : Bool) (indent : Int) (c : Cursor) :
    Except Problem (Lexeme × Cursor) := do
  let reading ← readBlock folded indent c.skip
  return (.block (scalarOf (if folded then .folded else .literal) reading), reading.after)

/-- Whether a character says what it begins. -/
def isIndicator (c : Char) : Bool :=
  isFlowPunctuation c || "-?:#&*!|>'\"%@`".toList.contains c

/-- Whether a plain scalar may begin with a text. -/
def beginsPlain (inFlow : Bool) : List Char → Bool
  | [] => false
  | c :: rest =>
    !(isGap c || isIndicator c) || (c == '-' && !rest.head?.any isSpace) ||
      (!inFlow && (c == '?' || c == ':') && !startsWithGap rest)

/-- Where a plain scalar may begin there is a character that it does not stop before. -/
theorem stopsPlain_of_beginsPlain {inFlow : Bool} {cs : List Char}
    (h : beginsPlain inFlow cs = true) : stopsPlain inFlow cs = false ∧ cs.head? ≠ some '#' := by
  have colon : isIndicator ':' = true := by decide
  have comment : isIndicator '#' = true := by decide
  have dash : isGap '-' = false ∧ isFlowPunctuation '-' = false := by decide
  have question : isGap '?' = false ∧ isGap ':' = false := by decide
  cases cs with
  | nil => simp [beginsPlain] at h
  | cons c rest =>
    have hpunctuation (h : isFlowPunctuation c = true) : isIndicator c = true := by
      simp [isIndicator, h]
    grind [beginsPlain, stopsPlain]

/-- A plain scalar.  Behind it a key may begin only if a line ended. -/
def readPlainLexeme (inFlow : Bool) (indent : Int) (c : Cursor) :
    Except Problem (Lexeme × Cursor) :=
  if beginsPlain inFlow c.rest then do
    let reading ← readPlain inFlow (indent + 1) [] {} c
    return (.inline (scalarOf .plain reading) reading.passedBreak, reading.after)
  else .error .unexpectedCharacter

/-! ### Whole lexemes -/

/-- An alias or an anchor, from its sign on. -/
def readNameLexeme (token : String → Token) (c : Cursor) : Except Problem (Lexeme × Cursor) := do
  let (name, after) ← readName c.skip
  return (.inline (token name) false, after)

/-- A tag, from its sign on. -/
def readTagLexeme (inFlow : Bool) (c : Cursor) : Except Problem (Lexeme × Cursor) := do
  let (token, after) ← readTag inFlow c
  return (.inline token false, after)

/-- What begins with a character that is no sign. -/
def readInline (inFlow : Bool) (indent : Int) (c : Cursor) (ch : Char) :
    Except Problem (Lexeme × Cursor) :=
  if ch == '*' then readNameLexeme .reference c
  else if ch == '&' then readNameLexeme .anchor c
  else if ch == '!' then readTagLexeme inFlow c
  else if ch == '|' && !inFlow then readBlockLexeme false indent c
  else if ch == '>' && !inFlow then readBlockLexeme true indent c
  else if ch == '\'' then readQuotedLexeme true c
  else if ch == '"' then readQuotedLexeme false c
  else readPlainLexeme inFlow indent c

/-- Reads what stands at a place.  `indent` is the column of the block around it. -/
def readLexeme (inFlow : Bool) (indent : Int) (c : Cursor) : Except Problem (Lexeme × Cursor) :=
  match c.rest with
  | [] => .error .unexpectedCharacter
  | ch :: rest =>
    if ch == '%' && c.column == 0 then do
      let (token, after) ← readDirective c
      return (.line token, after)
    else if c.atDocumentMark then
      .ok (.line (if ch == '-' then .documentStart else .documentEnd), c.skipMany 3)
    else
      match sign? inFlow (startsWithGap rest) ch with
      | some lexeme => .ok (lexeme, c.skip)
      | none => readInline inFlow indent c ch

/-! ### Progress -/

section

variable {inFlow : Bool} {indent : Int} {c after : Cursor} {ch : Char} {rest : List Char}
  {lexeme : Lexeme}

theorem length_readNameLexeme_lt {token : String → Token} (head : c.rest = ch :: rest)
    (h : readNameLexeme token c = .ok (lexeme, after)) : after.rest.length < c.rest.length := by
  obtain ⟨⟨name, stop⟩, hname, h⟩ := bind_eq_ok.1 h
  have := Cursor.length_rest_skip_lt head
  have := length_readName_le hname
  grind [pure_eq_ok]

theorem length_readTagLexeme_lt (head : c.rest = ch :: rest)
    (h : readTagLexeme inFlow c = .ok (lexeme, after)) : after.rest.length < c.rest.length := by
  obtain ⟨⟨token, stop⟩, htag, h⟩ := bind_eq_ok.1 h
  have := length_readTag_lt head htag
  grind [pure_eq_ok]

theorem length_readBlockLexeme_lt {folded : Bool} (head : c.rest = ch :: rest)
    (h : readBlockLexeme folded indent c = .ok (lexeme, after)) :
    after.rest.length < c.rest.length := by
  obtain ⟨reading, hreading, h⟩ := bind_eq_ok.1 h
  have := Cursor.length_rest_skip_lt head
  have := length_readBlock_le hreading
  grind [pure_eq_ok]

theorem length_readQuotedLexeme_lt {single : Bool} (head : c.rest = ch :: rest)
    (h : readQuotedLexeme single c = .ok (lexeme, after)) :
    after.rest.length < c.rest.length := by
  obtain ⟨reading, hreading, h⟩ := bind_eq_ok.1 h
  have := Cursor.length_rest_skip_lt head
  have := length_readQuoted_le hreading
  grind [pure_eq_ok]

theorem length_readPlainLexeme_lt (hmark : c.atDocumentMark = false)
    (h : readPlainLexeme inFlow indent c = .ok (lexeme, after)) :
    after.rest.length < c.rest.length := by
  unfold readPlainLexeme at h
  split at h
  · rename_i hbegins
    obtain ⟨hstop, hcomment⟩ := stopsPlain_of_beginsPlain hbegins
    obtain ⟨reading, hreading, h⟩ := bind_eq_ok.1 h
    have := length_readPlain_lt hmark hcomment hstop hreading
    grind [pure_eq_ok]
  · simp at h

theorem length_readInline_lt (head : c.rest = ch :: rest) (hmark : c.atDocumentMark = false)
    (h : readInline inFlow indent c ch = .ok (lexeme, after)) :
    after.rest.length < c.rest.length := by
  unfold readInline at h
  repeat' split at h
  · exact length_readNameLexeme_lt head h
  · exact length_readNameLexeme_lt head h
  · exact length_readTagLexeme_lt head h
  · exact length_readBlockLexeme_lt head h
  · exact length_readBlockLexeme_lt head h
  · exact length_readQuotedLexeme_lt head h
  · exact length_readQuotedLexeme_lt head h
  · exact length_readPlainLexeme_lt hmark h

/-- A lexeme is not empty. -/
theorem length_readLexeme_lt (h : readLexeme inFlow indent c = .ok (lexeme, after)) :
    after.rest.length < c.rest.length := by
  unfold readLexeme at h
  split at h
  · simp at h
  · rename_i ch rest head
    have hskip := Cursor.length_rest_skip_lt head
    split at h
    · obtain ⟨⟨token, stop⟩, hdirective, h⟩ := bind_eq_ok.1 h
      have := length_readDirective_lt head hdirective
      grind [pure_eq_ok]
    · split at h
      · have := Cursor.length_rest_skipMany_lt (Nat.succ_pos 2) head
        grind
      · rename_i hmark
        split at h
        · grind
        · exact length_readInline_lt head (by simpa using hmark) h

end

end OData.Yaml
