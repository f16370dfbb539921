/-
Plain values of fields.

A scalar is what a field holds when it is not a relationship.  It has three texts: one to show, one
to match keys by, and one to send.  Keys are matched by text, so that the integer `1` and the string
`1` address the same record; the null value is no key.

* `Scalar` — the values;
* `Scalar.ofJson?` — the scalar of a JSON value, unless it is an array or an object;
* `Scalar.display`, `Scalar.key?`, `Scalar.toJson` — the three texts.
-/

import OData.Json.Printer

set_option relaxedAutoImplicit false
set_option autoImplicit false

namespace OData

/-- A plain value. -/
inductive Scalar where
  | null
  | bool (value : Bool)
  | int (value : Int)
  | decimal (value : Decimal)
  | string (value : String)
deriving DecidableEq, Inhabited

namespace Scalar

/-- Whether an integer fits a signed word of 64 bits. -/
def fitsWord (n : Int) : Bool := -(Nat.pow 2 63 : Int) ≤ n && n < (Nat.pow 2 63 : Int)

/-- The scalar of a JSON value.  An integer beyond 64 bits becomes the nearest decimal; arrays and
objects have no scalar. -/
def ofJson? : Json → Option Scalar
  | .null => some null
  | .bool b => some (bool b)
  | .int n => some (if fitsWord n then int n else decimal (.ofInt n))
  | .decimal d => some (decimal d)
  | .string s => some (string s)
  | .array _ => none
  | .object _ => none

/-- The text that shows a scalar. -/
def display : Scalar → String
  | null => "null"
  | bool b => if b then "true" else "false"
  | int n => toString n
  | decimal d => d.positional
  | string s => s

/-- The text by which keys are matched. -/
def key? : Scalar → Option String
  | null => none
  | scalar => some scalar.display

/-- What is sent for a scalar.  A decimal that is an integer is sent as one, as long as integers and
decimals correspond one to one. -/
def toJson : Scalar → Json
  | null => .null
  | bool b => .bool b
  | int n => .int n
  | decimal d => match d.integer? with
    | some n => .int n
    | none => .decimal d
  | string s => .string s

@[simp] theorem key?_null : key? null = none := rfl

end Scalar

end OData
