/-
Text in double quotes, as it stands in messages.

A quoted text shows every character that a reader could not see or could not tell apart.  The
double quote and the backslash follow a backslash, TAB, LINE FEED, CARRIAGE RETURN and NUL have
their letters, and any other character that is not printable or that attaches to its neighbour is
written by its code point in lower-case hexadecimal digits between braces.

* `Text.Quoted.escape` — one character;
* `Text.quoted` — a whole text with its quotes;
* `Text.quotedList` — several quoted texts in brackets.
-/

import OData.Text.Property

set_option relaxedAutoImplicit false
set_option autoImplicit false

namespace OData.Text

/-- The written form of one character inside quotes. -/
def Quoted.escape (c : Char) : List Char :=
  if c = '"' then ['\\', '"']
  else if c = '\\' then ['\\', '\\']
  else if c = '\t' then ['\\', 't']
  else if c = '\n' then ['\\', 'n']
  else if c = '\r' then ['\\', 'r']
  else if c = '\x00' then ['\\', '0']
  else if isPrintable c && !isExtending c then [c]
  else "\\u\x7b".toList ++ Nat.toDigits 16 c.toNat ++ ['\x7d']

/-- A text in double quotes. -/
def quoted (s : String) : String :=
  "\"" ++ String.ofList (s.toList.flatMap Quoted.escape) ++ "\""

/-- Quoted texts between brackets, separated by commas. -/
def quotedList (ss : List String) : String :=
  "[" ++ String.intercalate ", " (ss.map quoted) ++ "]"

@[simp] theorem quotedList_nil : quotedList [] = "[]" := rfl

end OData.Text
