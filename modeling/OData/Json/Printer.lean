/-
JSON text.

There are two layouts.  The compact one has no blanks at all; the pretty one gives each item and
each member a line of its own, indented by two spaces for every level, and keeps empty arrays and
objects on one line.  Strings escape the double quote, the backslash and the control characters of
ASCII, and nothing else.

* `Json.quote` — a string;
* `Json.number` — a decimal; what is no finite number is written `null`;
* `Json.compact`, `Json.pretty` — the two layouts;
* `Json.memberTexts` — the members of an object as they stand in the compact layout.
-/

import OData.Decimal.Notation
import OData.Json.Basic

set_option relaxedAutoImplicit false
set_option autoImplicit false

namespace OData.Json

/-! ### Strings and numbers -/

/-- The four hexadecimal digits of a number below `2 ^ 16`. -/
def hexQuad (n : Nat) : List Char :=
  let digits := Nat.toDigits 16 n
  List.replicate (4 - digits.length) '0' ++ digits

/-- The written form of one character inside a string. -/
def escape (c : Char) : List Char :=
  if c = '"' then ['\\', '"']
  else if c = '\\' then ['\\', '\\']
  else if c = '\x08' then ['\\', 'b']
  else if c = '\t' then ['\\', 't']
  else if c = '\n' then ['\\', 'n']
  else if c = '\x0c' then ['\\', 'f']
  else if c = '\r' then ['\\', 'r']
  else if c.toNat < 0x20 then '\\' :: 'u' :: hexQuad c.toNat
  else [c]

/-- The text of a string. -/
def quote (s : String) : String := "\"" ++ String.ofList (s.toList.flatMap escape) ++ "\""

/-- The text of a decimal. -/
def number (d : Decimal) : String := if d.isFinite then d.scientific else "null"

/-! ### The compact layout -/

mutual

/-- The text of a value without blanks. -/
def compact : Json → String
  | null => "null"
  | bool b => if b then "true" else "false"
  | int n => toString n
  | decimal d => number d
  | string s => quote s
  | array items => "[" ++ String.intercalate "," (itemTexts items) ++ "]"
  | object members => "\x7b" ++ String.intercalate "," (memberTexts members) ++ "\x7d"

/-- The texts of the items of an array. -/
def itemTexts : List Json → List String
  | [] => []
  | item :: rest => compact item :: itemTexts rest

/-- The texts of the members of an object. -/
def memberTexts : List (String × Json) → List String
  | [] => []
  | (name, value) :: rest => (quote name ++ ":" ++ compact value) :: memberTexts rest

end

/-! ### The pretty layout -/

/-- The start of a line at some level. -/
def margin (level : Nat) : String := String.ofList (List.replicate (2 * level) ' ')

/-- Lines between brackets, or the brackets alone if there are no lines. -/
def bracketed (level : Nat) (opening closing : String) (lines : List String) : String :=
  if lines.isEmpty then opening ++ closing
  else
    opening ++ "\n" ++ String.intercalate ",\n" (lines.map (margin (level + 1) ++ ·)) ++ "\n" ++
      margin level ++ closing

mutual

/-- The text of a value whose first line stands at some level. -/
def prettyAt (level : Nat) : Json → String
  | null => "null"
  | bool b => if b then "true" else "false"
  | int n => toString n
  | decimal d => number d
  | string s => quote s
  | array items => bracketed level "[" "]" (itemLines level items)
  | object members => bracketed level "\x7b" "\x7d" (memberLines level members)

/-- The items of an array, each as it stands after its margin. -/
def itemLines (level : Nat) : List Json → List String
  | [] => []
  | item :: rest => prettyAt (level + 1) item :: itemLines level rest

/-- The members of an object, each as it stands after its margin. -/
def memberLines (level : Nat) : List (String × Json) → List String
  | [] => []
  | (name, value) :: rest =>
    (quote name ++ ": " ++ prettyAt (level + 1) value) :: memberLines level rest

end

/-- The text of a value on lines of its own. -/
def pretty (value : Json) : String := prettyAt 0 value

@[simp] theorem itemTexts_eq_map (items : List Json) : itemTexts items = items.map compact := by
  induction items with
  | nil => rfl
  | cons item rest ih => simp [itemTexts, ih]

@[simp] theorem memberTexts_eq_map (members : List (String × Json)) :
    memberTexts members = members.map fun m => quote m.1 ++ ":" ++ compact m.2 := by
  induction members with
  | nil => rfl
  | cons m rest ih => simp [memberTexts, ih]

end OData.Json
