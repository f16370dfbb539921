/-
Reading what stands before a node: names and tags.

An anchor and an alias are a sign with a name behind it.  A tag is a text in angle brackets, or a
handle that some line at the head of the document declares, with a suffix.  In tags a percent sign
with two digits stands for a byte of a character, and NUL, which can only be written so, hides what
stands behind it.

* `Yaml.readName` — the name of an anchor or an alias;
* `Yaml.readTagText`, `Yaml.readTag` — a run of characters of a tag, and a whole tag;
* `Yaml.readDirective` — a line that begins with a percent sign.
-/

import OData.Yaml.Token.Basic

set_option relaxedAutoImplicit false
set_option autoImplicit false

namespace OData.Yaml

/-! ### Names -/

/-- Whether a name may end before a text. -/
def endsName : List Char → Bool
  | [] => true
  | c :: _ => isGap c || "?:,]\x7d%@`".toList.contains c

/-- Reads the name of an anchor or an alias behind its sign. -/
def readName (c : Cursor) : Except Problem (String × Cursor) :=
  let (name, after) := c.takeWhile isWord
  if name.isEmpty || !endsName after.rest then .error .badAnchor
  else .ok (String.ofList name, after)

theorem length_readName_le {c after : Cursor} {name : String} (h : readName c = .ok (name, after)) :
    after.rest.length ≤ c.rest.length := by
  have := c.length_rest_takeWhile_le isWord
  grind [readName]

/-! ### Tags -/

/-- Whether a character may stand in a tag.  Commas and square brackets are for tags in angle
brackets alone. -/
def isTagChar (full : Bool) (c : Char) : Bool :=
  isWord c || ";/?:@&=+$.%!~*'()".toList.contains c || (full && ",[]".toList.contains c)

/-- The number of bytes of a character that begins with a byte. -/
def encodedWidth? (byte : Nat) : Option Nat :=
  if byte < 0x80 then some 1
  else if 0xC0 ≤ byte && byte < 0xE0 then some 2
  else if 0xE0 ≤ byte && byte < 0xF0 then some 3
  else if 0xF0 ≤ byte && byte < 0xF8 then some 4
  else none

/-- The byte behind a percent sign. -/
def escapedByte? : List Char → Option Nat
  | '%' :: high :: low :: _ => hexValue? [high, low]
  | _ => none

/-- A code point to which some further bytes add six bits each. -/
def continueCode (cs : List Char) : Nat → Nat → Option Nat
  | 0, code => some code
  | n + 1, code =>
    match escapedByte? cs with
    | some byte =>
      if 0x80 ≤ byte && byte < 0xC0 then continueCode (cs.drop 3) n (64 * code + byte % 64)
      else none
    | none => none

/-- The character that escaped bytes stand for, if there is one, and the number of signs that they
take behind the first. -/
def escapedChar? (cs : List Char) : Option (Option Char × Nat) := do
  let byte ← escapedByte? cs
  let width ← encodedWidth? byte
  let leading := if width = 1 then byte else byte % Nat.pow 2 (7 - width)
  let code ← continueCode (cs.drop 3) (width - 1) leading
  return ((charOf? code).filter (·.utf8Size == width), 3 * width - 1)

/-- The characters of a tag that a text goes on with, escapes resolved, and the cursor behind
them. -/
def readTagText (full : Bool) (acc : TagText) (c : Cursor) : Except Problem (TagText × Cursor) :=
  match _head : c.rest with
  | [] => .ok (acc.reverse, c)
  | ch :: _ =>
    if !isTagChar full ch then .ok (acc.reverse, c)
    else if ch == '%' then
      match escapedChar? c.rest with
      | some (value, width) => readTagText full (value :: acc) (c.skipMany (width + 1))
      | none => .error .badTag
    else readTagText full (some ch :: acc) c.skip
termination_by c.rest.length
decreasing_by
  · exact Cursor.length_rest_skipMany_lt (Nat.succ_pos _) _head
  · exact Cursor.length_rest_skip_lt _head

theorem length_readTagText_le {full : Bool} {acc text : TagText} {c after : Cursor}
    (h : readTagText full acc c = .ok (text, after)) : after.rest.length ≤ c.rest.length := by
  fun_induction readTagText full acc c with
  | case1 => grind
  | case2 => grind
  | case3 acc c ch rest head _ _ value width _ ih =>
    have := Cursor.length_rest_skipMany_lt (Nat.succ_pos width) head
    grind
  | case4 => simp at h
  | case5 acc c ch rest head _ _ ih =>
    have := Cursor.length_rest_skip_lt head
    grind

/-- The handle that a text begins with: an exclamation mark, then perhaps a name with another one
behind it.  Without that other mark the name is no part of a declared handle. -/
def readHandle (c : Cursor) : Except Problem (List Char × Cursor) :=
  match c.rest with
  | '!' :: _ =>
    let (word, after) := c.skip.takeWhile isWord
    match after.rest with
    | '!' :: _ => .ok ('!' :: word ++ ['!'], after.skip)
    | _ => .ok ('!' :: word, after)
  | _ => .error .badTag

theorem length_readHandle_lt {c after : Cursor} {handle : List Char}
    (h : readHandle c = .ok (handle, after)) : after.rest.length < c.rest.length := by
  unfold readHandle at h
  split at h
  · rename_i head
    have := Cursor.length_rest_skip_lt head
    have := c.skip.length_rest_takeWhile_le isWord
    grind [Cursor.rest_skip]
  · simp at h

/-- Whether a handle is closed by a second exclamation mark. -/
def isClosedHandle (handle : List Char) : Bool := 1 < handle.length && handle.getLast? == some '!'

/-- Reads a tag in angle brackets: an empty handle, and its text. -/
def readFullTag (c : Cursor) : Except Problem (List Char × TagText × Cursor) := do
  let (text, after) ← readTagText true [] (c.skipMany 2)
  if text.isEmpty || after.rest.head? != some '>' then .error .badTag
  else return ([], text.upToNull, after.skip)

/-- A tag without a closed handle, from its own handle and the text behind that.  A lone exclamation
mark is the suffix of an empty handle. -/
def withoutHandle (handle : List Char) (text : TagText) : List Char × TagText :=
  let suffix := (TagText.ofList (handle.drop 1) ++ text).upToNull
  if suffix.isEmpty then ([], .ofList ['!']) else (['!'], suffix)

/-- Reads a tag with a handle: the handle and the suffix. -/
def readShortTag (c : Cursor) : Except Problem (List Char × TagText × Cursor) := do
  let (handle, after) ← readHandle c
  let (text, after) ← readTagText false [] after
  if isClosedHandle handle then
    if text.isEmpty then .error .badTag else return (handle, text.upToNull, after)
  else
    let (handle, suffix) := withoutHandle handle text
    return (handle, suffix, after)

/-- Reads the parts of a tag. -/
def readTagParts (c : Cursor) : Except Problem (List Char × TagText × Cursor) :=
  if c.skip.rest.head? == some '<' then readFullTag c else readShortTag c

/-- Reads a tag. -/
def readTag (inFlow : Bool) (c : Cursor) : Except Problem (Token × Cursor) := do
  let (handle, suffix, after) ← readTagParts c
  if startsWithGap after.rest || (inFlow && after.rest.head? == some ',') then
    return (.tag (String.ofList handle) suffix, after)
  else .error .badTag

theorem length_readTagParts_lt {c after : Cursor} {ch : Char} {rest handle : List Char}
    {suffix : TagText} (head : c.rest = ch :: rest)
    (h : readTagParts c = .ok (handle, suffix, after)) :
    after.rest.length < c.rest.length := by
  unfold readTagParts at h
  split at h
  · obtain ⟨⟨text, stop⟩, htext, h⟩ := bind_eq_ok.1 h
    have := length_readTagText_le htext
    have := Cursor.length_rest_skipMany_lt Nat.zero_lt_two head
    grind [pure_eq_ok, Cursor.rest_skip]
  · obtain ⟨⟨handle', stop⟩, hhandle, h⟩ := bind_eq_ok.1 h
    obtain ⟨⟨text, stop'⟩, htext, h⟩ := bind_eq_ok.1 h
    have := length_readHandle_lt hhandle
    have := length_readTagText_le htext
    grind [pure_eq_ok]

theorem length_readTag_lt {inFlow : Bool} {c after : Cursor} {ch : Char} {rest : List Char}
    {token : Token} (head : c.rest = ch :: rest) (h : readTag inFlow c = .ok (token, after)) :
    after.rest.length < c.rest.length := by
  obtain ⟨⟨handle, suffix, stop⟩, hparts, h⟩ := bind_eq_ok.1 h
  have := length_readTagParts_lt head hparts
  grind [pure_eq_ok]

/-! ### Directives -/

/-- Reads a number of a version. -/
def readVersionNumber (c : Cursor) : Except Problem (Nat × Cursor) :=
  let (digits, after) := c.takeWhile Char.isDigit
  if digits.isEmpty || 9 < digits.length then .error .badDirective
  else .ok (digits.foldl (fun n d => 10 * n + (d.toNat - '0'.toNat)) 0, after)

/-- Reads the two numbers of a version. -/
def readVersion (c : Cursor) : Except Problem (Token × Cursor) := do
  let (major, dot) ← readVersionNumber (c.skipWhile isSpace)
  if dot.rest.head? != some '.' then .error .badDirective
  else do
    let (minor, after) ← readVersionNumber dot.skip
    return (.version major minor, after)

/-- Reads the declaration of a handle: the handle, and what it stands for. -/
def readDeclaration (c : Cursor) : Except Problem (Token × Cursor) := do
  let (handle, gap) ← readHandle (c.skipWhile isSpace)
  if (1 < handle.length && !isClosedHandle handle) || !gap.rest.head?.any isSpace then
    .error .badDirective
  else do
    let (text, after) ← readTagText true [] (gap.skipWhile isSpace)
    if text.isEmpty || !startsWithGap after.rest then .error .badDirective
    else return (.handle (String.ofList handle) text.upToNull, after)

/-- Reads what a line declares that begins with a name. -/
def readDeclared (name : List Char) (c : Cursor) : Except Problem (Token × Cursor) :=
  if name = "YAML".toList then readVersion c
  else if name = "TAG".toList then readDeclaration c
  else .error .badDirective

/-- Reads a line that begins with a percent sign. -/
def readDirective (c : Cursor) : Except Problem (Token × Cursor) :=
  let name := c.skip.takeWhile isWord
  if !startsWithGap name.2.rest then .error .badDirective
  else do
    let (token, stop) ← readDeclared name.1 name.2
    let after ← stop.skipLineEnd .badDirective
    return (token, after)

theorem length_readVersionNumber_le {c after : Cursor} {n : Nat}
    (h : readVersionNumber c = .ok (n, after)) : after.rest.length ≤ c.rest.length := by
  have := c.length_rest_takeWhile_le Char.isDigit
  grind [readVersionNumber]

theorem length_readVersion_le {c after : Cursor} {token : Token}
    (h : readVersion c = .ok (token, after)) : after.rest.length ≤ c.rest.length := by
  obtain ⟨⟨major, dot⟩, hmajor, h⟩ := bind_eq_ok.1 h
  have := c.length_rest_skipWhile_le isSpace
  have := length_readVersionNumber_le hmajor
  dsimp only at h
  split at h
  · simp at h
  · obtain ⟨⟨minor, stop⟩, hminor, h⟩ := bind_eq_ok.1 h
    have := length_readVersionNumber_le hminor
    grind [pure_eq_ok, Cursor.rest_skip]

theorem length_readDeclaration_le {c after : Cursor} {token : Token}
    (h : readDeclaration c = .ok (token, after)) : after.rest.length ≤ c.rest.length := by
  obtain ⟨⟨handle, gap⟩, hhandle, h⟩ := bind_eq_ok.1 h
  have := c.length_rest_skipWhile_le isSpace
  have := length_readHandle_lt hhandle
  have := gap.length_rest_skipWhile_le isSpace
  dsimp only at h
  split at h
  · simp at h
  · obtain ⟨⟨text, stop⟩, htext, h⟩ := bind_eq_ok.1 h
    have := length_readTagText_le htext
    grind [pure_eq_ok]

theorem length_readDeclared_le {name : List Char} {c after : Cursor} {token : Token}
    (h : readDeclared name c = .ok (token, after)) : after.rest.length ≤ c.rest.length := by
  unfold readDeclared at h
  split at h
  · exact length_readVersion_le h
  · split at h
    · exact length_readDeclaration_le h
    · simp at h

theorem length_readDirective_lt {c after : Cursor} {ch : Char} {rest : List Char} {token : Token}
    (head : c.rest = ch :: rest) (h : readDirective c = .ok (token, after)) :
    after.rest.length < c.rest.length := by
  have := Cursor.length_rest_skip_lt head
  have := c.skip.length_rest_takeWhile_le isWord
  simp only [readDirective] at h
  split at h
  · simp at h
  · obtain ⟨⟨declared, stop⟩, hdeclared, h⟩ := bind_eq_ok.1 h
    obtain ⟨lineEnd, hend, h⟩ := bind_eq_ok.1 h
    have := length_readDeclared_le hdeclared
    have := Cursor.length_skipLineEnd_le hend
    grind [pure_eq_ok]

end OData.Yaml
