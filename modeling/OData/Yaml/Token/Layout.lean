/-
The tokens of a whole text, with its layout.

A line that is indented more than the block around it begins a block, one that is indented less ends
as many as it leaves.  Inside brackets indentation means nothing.  A key shows only by the colon
behind it, so the place where a key may have begun is kept until its line ends; a colon in time puts
a key token there, and the beginning of a block if the key begins one.  A node that begins a line of
a block of members has to be a key.

* `Yaml.Candidate` — a place where a key may have begun;
* `Yaml.Layout` — the state between two lexemes;
* `Yaml.Layout.arrive`, `Layout.add`, `Layout.finish` — what a place, a lexeme, and the end of the
  text do to it;
* `Yaml.tokens` — all tokens of a text.
-/

import OData.Yaml.Token.Lexeme

set_option relaxedAutoImplicit false
set_option autoImplicit false

namespace OData.Yaml

/-- A place where a key may have begun. -/
structure Candidate where
  position : Position
  /-- Whether nothing but a key may stand there. -/
  isRequired : Bool
  /-- The number of tokens before it. -/
  count : Nat

/-- The greatest number of bytes of a key, up to its colon. -/
def longestKey : Nat := 1024

/-- Whether a key that began at a candidate may still get its colon at a place. -/
def Candidate.isOpen (candidate : Candidate) (here : Position) : Bool :=
  here.line ≤ candidate.position.line && here.index ≤ candidate.position.index + longestKey

/-- The state between two lexemes. -/
structure Layout where
  tokens : Array Token := #[]
  /-- The column of the innermost block, or minus one. -/
  indent : Int := -1
  /-- The columns of the blocks around it. -/
  outer : List Int := []
  /-- Whether a key may begin here. -/
  keyAllowed : Bool := true
  /-- The key that may have begun, outside brackets or inside the innermost. -/
  candidate : Option Candidate := none
  /-- The same for the brackets around those. -/
  outerCandidates : List (Option Candidate) := []

namespace Layout

/-- Whether the place is inside brackets. -/
def inFlow (s : Layout) : Bool := !s.outerCandidates.isEmpty

/-- Appends a token. -/
def emit (s : Layout) (token : Token) : Layout := { s with tokens := s.tokens.push token }

/-- Puts a token behind some of the tokens. -/
def insert (s : Layout) (count : Nat) (token : Token) : Layout :=
  { s with tokens := s.tokens.insertIdxIfInBounds count token }

/-! ### Blocks -/

/-- Begins a block at a column, unless the place belongs to one of at least that column. -/
def openBlock (s : Layout) (column : Int) (count : Nat) (token : Token) : Layout :=
  if s.inFlow || column ≤ s.indent then s
  else { s.insert count token with indent := column, outer := s.indent :: s.outer }

/-- Ends blocks, innermost first, until the column of one is at most the given column: the
remaining columns, and the number of blocks that end. -/
def leave (column : Int) (indent : Int) : List Int → Int × List Int × Nat
  | [] => (indent, [], 0)
  | next :: outer =>
    if column < indent then
      let (indent', outer', count) := leave column next outer
      (indent', outer', count + 1)
    else (indent, next :: outer, 0)

/-- Ends the blocks that a line of a column does not belong to. -/
def closeBlocks (s : Layout) (column : Int) : Layout :=
  if s.inFlow then s
  else
    let (indent, outer, count) := leave column s.indent s.outer
    { s with indent, outer, tokens := s.tokens ++ Array.replicate count .blockEnd }

/-! ### Keys -/

/-- Gives up the key that may have begun. -/
def dropCandidate (s : Layout) : Except Problem Layout :=
  if s.candidate.any fun candidate => candidate.isRequired then .error .missingColon
  else .ok { s with candidate := none }

/-- Notes that a key may begin at a place. -/
def noteCandidate (s : Layout) (here : Position) : Except Problem Layout :=
  if s.keyAllowed then do
    let s' ← s.dropCandidate
    let isRequired := !s.inFlow && s.indent == here.column
    return { s' with candidate := some ⟨here, isRequired, s.tokens.size⟩ }
  else .ok s

/-- What is left of a candidate at a place. -/
def refresh (here : Position) : Option Candidate → Except Problem (Option Candidate)
  | none => .ok none
  | some candidate =>
    if candidate.isOpen here then .ok (some candidate)
    else if candidate.isRequired then .error .missingColon
    else .ok none

/-- Gives up all keys whose colon would come too late at a place. -/
def refreshCandidates (s : Layout) (here : Position) : Except Problem Layout := do
  let outerCandidates ← s.outerCandidates.mapM (refresh here)
  let candidate ← refresh here s.candidate
  return { s with candidate, outerCandidates }

/-! ### Places -/

/-- Comes to a place where a lexeme or the end of the text is. -/
def arrive (s : Layout) (here : Position) : Except Problem Layout := do
  let s ← s.refreshCandidates here
  return s.closeBlocks here.column

/-- Ends the text. -/
def finish (s : Layout) : Except Problem (List Token) := do
  let s ← (s.closeBlocks (-1)).dropCandidate
  return s.tokens.toList

/-! ### Lexemes -/

/-- A line of its own. -/
def addLine (s : Layout) (token : Token) : Except Problem Layout := do
  let s ← (s.closeBlocks (-1)).dropCandidate
  return { s with keyAllowed := false }.emit token

/-- An opening bracket. -/
def addOpening (s : Layout) (here : Position) (token : Token) : Except Problem Layout := do
  let s ← s.noteCandidate here
  return { s.emit token with
    keyAllowed := true, candidate := none, outerCandidates := s.candidate :: s.outerCandidates }

/-- A closing bracket. -/
def addClosing (s : Layout) (token : Token) : Except Problem Layout := do
  let s ← s.dropCandidate
  let s := { s with keyAllowed := false }.emit token
  match s.outerCandidates with
  | [] => return s
  | candidate :: outerCandidates => return { s with candidate, outerCandidates }

/-- A comma. -/
def addComma (s : Layout) : Except Problem Layout := do
  let s ← s.dropCandidate
  return { s with keyAllowed := true }.emit .comma

/-- Begins a block at a place if that is outside brackets; an entry has to be allowed there. -/
def beginEntry (s : Layout) (here : Position) (start : Token) : Except Problem Layout :=
  if s.inFlow then .ok s
  else if s.keyAllowed then .ok (s.openBlock here.column s.tokens.size start)
  else .error .misplacedEntry

/-- The dash before an item. -/
def addItem (s : Layout) (here : Position) : Except Problem Layout := do
  let s ← (← s.beginEntry here .sequenceStart).dropCandidate
  return { s with keyAllowed := true }.emit .item

/-- The question mark before a key. -/
def addKey (s : Layout) (here : Position) : Except Problem Layout := do
  let s ← (← s.beginEntry here .mappingStart).dropCandidate
  return { s with keyAllowed := !s.inFlow }.emit .key

/-- The colon before a value. -/
def addValue (s : Layout) (here : Position) : Except Problem Layout := do
  match s.candidate with
  | some candidate =>
    let s := s.insert candidate.count .key
    let s := s.openBlock candidate.position.column candidate.count .mappingStart
    return { s with candidate := none, keyAllowed := false }.emit .value
  | none =>
    let s ← s.beginEntry here .mappingStart
    return { s with keyAllowed := !s.inFlow }.emit .value

/-- A token that may begin a key. -/
def addInline (s : Layout) (here : Position) (token : Token) (keyBehind : Bool) :
    Except Problem Layout := do
  let s ← s.noteCandidate here
  return { s with keyAllowed := keyBehind }.emit token

/-- A block scalar. -/
def addBlock (s : Layout) (token : Token) : Except Problem Layout := do
  let s ← s.dropCandidate
  return { s with keyAllowed := true }.emit token

/-- The lexeme at a place. -/
def add (s : Layout) (here : Position) : Lexeme → Except Problem Layout
  | .line token => s.addLine token
  | .opening token => s.addOpening here token
  | .closing token => s.addClosing token
  | .comma => s.addComma
  | .item => s.addItem here
  | .key => s.addKey here
  | .value => s.addValue here
  | .inline token keyBehind => s.addInline here token keyBehind
  | .block token => s.addBlock token

end Layout

/-! ### Whole texts -/

/-- Behind the byte order mark that may begin a line. -/
def skipMark (c : Cursor) : Cursor :=
  if c.column == 0 && c.rest.head? == some orderMark then c.skip else c

theorem length_skipMark_le (c : Cursor) : (skipMark c).rest.length ≤ c.rest.length := by
  unfold skipMark
  split <;> simp

/-- Behind blanks and a comment.  Where a block may begin, a tab is no blank. -/
def skipBlanks (inFlow keyAllowed : Bool) (c : Cursor) : Cursor :=
  let blanks := fun ch => ch == ' ' || ((inFlow || !keyAllowed) && ch == '\t')
  ((skipMark c).skipWhile blanks).skipComment

theorem length_skipBlanks_le (inFlow keyAllowed : Bool) (c : Cursor) :
    (skipBlanks inFlow keyAllowed c).rest.length ≤ c.rest.length :=
  Nat.le_trans (Cursor.length_rest_skipComment_le _)
    (Nat.le_trans ((skipMark c).length_rest_skipWhile_le _) (length_skipMark_le c))

/-- Behind blanks, comments and line breaks, and whether a key may begin there. -/
def skipGaps (inFlow keyAllowed : Bool) (c : Cursor) : Bool × Cursor :=
  match _head : (skipBlanks inFlow keyAllowed c).rest with
  | [] => (keyAllowed, skipBlanks inFlow keyAllowed c)
  | ch :: _ =>
    if _ends : isBreak ch then
      skipGaps inFlow (keyAllowed || !inFlow) (skipBlanks inFlow keyAllowed c).skipBreak.2
    else (keyAllowed, skipBlanks inFlow keyAllowed c)
termination_by c.rest.length
decreasing_by
  exact Nat.lt_of_lt_of_le (Cursor.length_rest_skipBreak_lt _head _ends)
    (length_skipBlanks_le inFlow keyAllowed c)

theorem length_skipGaps_le {inFlow keyAllowed keyBehind : Bool} {c after : Cursor}
    (h : skipGaps inFlow keyAllowed c = (keyBehind, after)) :
    after.rest.length ≤ c.rest.length := by
  fun_induction skipGaps inFlow keyAllowed c with
  | case1 keyAllowed c => grind [length_skipBlanks_le]
  | case2 keyAllowed c ch rest head ends ih =>
    have := Cursor.length_rest_skipBreak_lt head ends
    have := length_skipBlanks_le inFlow keyAllowed c
    have := ih h
    omega
  | case3 keyAllowed c => grind [length_skipBlanks_le]

/-- The tokens from a place on. -/
def Layout.readAll (s : Layout) (c : Cursor) : Except Problem (List Token) :=
  match _gap : skipGaps s.inFlow s.keyAllowed c with
  | (keyAllowed, next) => do
    let s ← { s with keyAllowed }.arrive next.position
    if next.rest.isEmpty then s.finish
    else do
      let ⟨(lexeme, after), _lexeme⟩ ← attach (readLexeme s.inFlow s.indent next)
      let s ← s.add next.position lexeme
      s.readAll after
termination_by c.rest.length
decreasing_by
  exact Nat.lt_of_lt_of_le (length_readLexeme_lt _lexeme) (length_skipGaps_le _gap)

/-- The tokens of a text. -/
def tokens (text : String) : Except Problem (List Token) := do
  Layout.readAll {} { rest := ← checked text }

end OData.Yaml
