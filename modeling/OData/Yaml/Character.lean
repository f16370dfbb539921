/-
The classes of characters in a YAML text.

* `Yaml.isBreak`, `Yaml.isSpace`, `Yaml.isWord` — line breaks, blanks inside a line, and the
  characters of anchors and handles;
* `Yaml.isAllowed` — the characters that may occur at all;
* `Yaml.hexValue?`, `Yaml.charOf?` — the value of hexadecimal digits, and the character of a code
  point;
* `Yaml.checked` — the characters of a text, if all of them may occur.
-/

import OData.Yaml.Problem

set_option relaxedAutoImplicit false
set_option autoImplicit false

namespace OData.Yaml

/-- Whether a character ends a line. -/
def isBreak (c : Char) : Bool :=
  c == '\n' || c == '\r' || c == '\u0085' || c == '\u2028' || c == '\u2029'

/-- Whether a character is a blank inside a line. -/
def isSpace (c : Char) : Bool := c == ' ' || c == '\t'

/-- Whether a character may stand in an anchor or a handle. -/
def isWord (c : Char) : Bool := c.isAlphanum || c == '_' || c == '-'

/-- The byte order mark.  It may begin any line, and inside a line it is a character like others. -/
def orderMark : Char := '\ufeff'

/-- Whether a character separates tokens. -/
def isGap (c : Char) : Bool := isSpace c || isBreak c

/-- Whether a text is at its end or goes on with a character that separates tokens. -/
def startsWithGap : List Char → Bool
  | [] => true
  | c :: _ => isGap c

/-- Whether a text is at its end or at the end of a line. -/
def startsWithBreak : List Char → Bool
  | [] => true
  | c :: _ => isBreak c

/-- Whether a character may occur in a text. -/
def isAllowed (c : Char) : Bool :=
  let n := c.toNat
  n == 0x09 || n == 0x0A || n == 0x0D || (0x20 ≤ n && n ≤ 0x7E) || n == 0x85 ||
    (0xA0 ≤ n && n ≤ 0xD7FF) || (0xE000 ≤ n && n ≤ 0xFFFD) || 0x10000 ≤ n

/-- The value of a hexadecimal digit. -/
def hexDigit? (c : Char) : Option Nat :=
  if c.isDigit then some (c.toNat - '0'.toNat)
  else if 'a' ≤ c && c ≤ 'f' then some (c.toNat - 'a'.toNat + 10)
  else if 'A' ≤ c && c ≤ 'F' then some (c.toNat - 'A'.toNat + 10)
  else none

/-- The value of some hexadecimal digits. -/
def hexValue? (digits : List Char) : Option Nat :=
  digits.foldlM (fun n c => (hexDigit? c).map (16 * n + ·)) 0

/-- The character of a code point, unless it is a surrogate or too large. -/
def charOf? (n : Nat) : Option Char :=
  if (0xD800 ≤ n && n ≤ 0xDFFF) || 0x10FFFF < n then none else some (Char.ofNat n)

/-- The characters of a text, if all of them may occur. -/
def checked (text : String) : Except Problem (List Char) :=
  if text.toList.all isAllowed then .ok text.toList else .error .forbiddenCharacter

end OData.Yaml
