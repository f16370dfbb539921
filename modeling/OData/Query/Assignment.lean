/-
Queries as they stand behind the question mark of a request.

At the top level, options are `$name=value` assignments separated by `&`.  The first occurrence of
an option wins, whatever its value; assignments to any other name are ignored.  Strict reading
refuses the first assignment whose count is not a number or whose parentheses do not match.

* `Query.assignments` — the trimmed names and values of a query text;
* `Query.Options.parse` — the options that they set, without any chance of failure;
* `Query.Options.parseStrict` — the same options, or the assignment at fault.
-/

import OData.Fault
import OData.Query.Value

set_option relaxedAutoImplicit false
set_option autoImplicit false

namespace OData.Query

open Text

/-- The trimmed name and value of one option; an option without `=` has an empty value. -/
def assignment (piece : List Char) : List Char × List Char :=
  match splitOnce '=' piece with
  | some (name, value) => (trim name, trim value)
  | none => (trim piece, [])

/-- A query text without the question mark that may introduce it. -/
def withoutMark (cs : List Char) : List Char :=
  match trim cs with
  | '?' :: rest => rest
  | rest => rest

/-- The names and values of a query text, less its empty pieces. -/
def assignments (raw : List Char) : List (List Char × List Char) :=
  ((pieces (· == '&') (withoutMark raw)).filter (! ·.isEmpty)).map assignment

/-- The value of the first assignment to an option. -/
def firstValue (option : SystemOption) (pairs : List (List Char × List Char)) :
    Option (List Char) :=
  (pairs.find? fun pair => SystemOption.ofName? pair.1 = some option).map (·.2)

/-- The options that a list of assignments sets, the first occurrence of each winning. -/
def Options.ofAssignments (pairs : List (List Char × List Char)) : Options where
  skip := ((firstValue .skip pairs).bind readCount).getD 0
  top := (firstValue .top pairs).bind readLimit
  expand := ((firstValue .expand pairs).map readExpand).getD []
  select := ((firstValue .select pairs).map readSelect).getD []

/-- The options of a query text. -/
def Options.parse (raw : String) : Options := .ofAssignments (assignments raw.toList)

/-! ### Strict reading -/

/-- Whether a text is a number of 64 bits as strict reading wants it: digits after an optional plus
sign, and nothing else. -/
def isStrictCount (value : List Char) : Bool :=
  let digits := match trim value with
    | '+' :: rest => rest
    | rest => rest
  !digits.isEmpty && digits.all Char.isDigit && digitsValue digits < countLimit

/-- Whether strict reading refuses an assignment: a count that is no number, or a list whose
parentheses do not match. -/
def isMalformed (pair : List Char × List Char) : Bool :=
  match SystemOption.ofName? pair.1 with
  | some .skip | some .top => !isStrictCount pair.2
  | some .expand | some .select => !isBalanced pair.2
  | none => false

/-- The options of a query text, or the first assignment that strict reading refuses. -/
def Options.parseStrict (raw : String) : Except Fault Options :=
  match (assignments raw.toList).find? isMalformed with
  | some (name, value) => .error (.malformedOption (String.ofList name) (String.ofList value))
  | none => .ok (.parse raw)

end OData.Query
