/-
What a scalar stands for.

A plain scalar can be nothing, a truth value, an integer in one of four bases, a decimal, or a text.
Digits behind a leading zero are a text.  A tag can ask for one of these kinds, and then no other
will do; any other scalar is its text.

* `Yaml.Plain.null?`, `Plain.bool?`, `Plain.unsigned?`, `Plain.integer?`, `Plain.decimal?` — the
  readings of a plain scalar;
* `Yaml.Plain.resolve` — the first of them that applies;
* `Yaml.resolveScalar?` — any scalar.
-/

import OData.Yaml.Data.Basic
import OData.Yaml.Node

set_option relaxedAutoImplicit false
set_option autoImplicit false

namespace OData.Yaml

namespace Plain

/-! ### Words -/

/-- Whether a scalar is a word for nothing. -/
def isNull (text : String) : Bool := ["null", "Null", "NULL", "~"].contains text

/-- The truth value that a scalar is the word for. -/
def bool? (text : String) : Option Bool :=
  if ["true", "True", "TRUE"].contains text then some true
  else if ["false", "False", "FALSE"].contains text then some false
  else none

/-! ### Integers -/

/-- The value of digits in a base, at least one. -/
def numeral? (base : Nat) (digits : List Char) : Option Nat :=
  if digits.isEmpty then none
  else
    digits.foldlM
      (fun n c => (hexDigit? c).bind fun d => if d < base then some (base * n + d) else none) 0

/-- The base that a scalar names, and the digits behind its name. -/
def base? : List Char → Option (Nat × List Char)
  | '0' :: 'x' :: digits => some (16, digits)
  | '0' :: 'o' :: digits => some (8, digits)
  | '0' :: 'b' :: digits => some (2, digits)
  | _ => none

/-- A text without the sign it may begin with. -/
def withoutSign : List Char → List Char
  | '+' :: rest | '-' :: rest => rest
  | cs => cs

/-- Whether a scalar has digits behind a leading zero. -/
def isPadded (cs : List Char) : Bool :=
  match withoutSign cs with
  | '0' :: rest => !rest.isEmpty && rest.all Char.isDigit
  | _ => false

/-- The magnitude of an integer without a sign. -/
def magnitude? (cs : List Char) : Option Nat :=
  match base? cs with
  | some (base, digits) => numeral? base digits
  | none => if isPadded cs then none else numeral? 10 cs

/-- The integer without a minus sign that a scalar is. -/
def unsigned? (text : String) : Option Nat :=
  match text.toList with
  | '+' :: rest => magnitude? rest
  | cs => magnitude? cs

/-- The integer that a scalar is.  Beyond 128 bits there are none. -/
def integer? (text : String) : Option Int :=
  match text.toList with
  | '-' :: rest =>
    (magnitude? rest).bind fun n => if n ≤ Nat.pow 2 127 then some (-(n : Int)) else none
  | _ => (unsigned? text).bind fun n => if n < Nat.pow 2 128 then some (n : Int) else none

/-! ### Decimals -/

/-- The exponent behind the digits of a decimal, zero if there is none. -/
def exponent? : List Char → Option Int
  | [] => some 0
  | e :: rest =>
    if e != 'e' && e != 'E' then none
    else
      match rest with
      | '-' :: digits => (numeral? 10 digits).map fun n => -(n : Int)
      | '+' :: digits => (numeral? 10 digits).map fun n => (n : Int)
      | digits => (numeral? 10 digits).map fun n => (n : Int)

/-- The decimal that digits, perhaps a point among or around them, and perhaps an exponent are. -/
def scientific? (negative : Bool) (cs : List Char) : Option Decimal := do
  let whole := cs.takeWhile Char.isDigit
  let rest := cs.dropWhile Char.isDigit
  let (fraction, rest) := match rest with
    | '.' :: rest => (rest.takeWhile Char.isDigit, rest.dropWhile Char.isDigit)
    | rest => ([], rest)
  let digits ← numeral? 10 (whole ++ fraction)
  let exponent ← exponent? rest
  let decimal := Decimal.ofScientific negative digits (exponent - fraction.length)
  if decimal.isFinite then some decimal else none

/-- The decimal that a scalar is; only the words for the infinities stand for them. -/
def decimal? (text : String) : Option Decimal :=
  if [".inf", ".Inf", ".INF", "+.inf", "+.Inf", "+.INF"].contains text then
    some (.infinity false)
  else if ["-.inf", "-.Inf", "-.INF"].contains text then some (.infinity true)
  else if [".nan", ".NaN", ".NAN"].contains text then some .nan
  else
    match text.toList with
    | '-' :: rest => scientific? true rest
    | '+' :: rest => scientific? false rest
    | cs => scientific? false cs

/-! ### Resolution -/

/-- What a plain scalar stands for. -/
def resolve (text : String) : Data :=
  if text = "" || isNull text then .null
  else
    match bool? text with
    | some value => .bool value
    | none =>
      match integer? text with
      | some value => .integer value
      | none =>
        match if isPadded text.toList then none else decimal? text with
        | some value => .decimal value
        | none => .string text

end Plain

/-- What a scalar of a kind stands for, if it is of that kind. -/
def CoreTag.resolve? (kind : CoreTag) (text : String) : Option Data :=
  match kind with
  | .null => if Plain.isNull text then some .null else none
  | .bool => (Plain.bool? text).map .bool
  | .int => (Plain.integer? text).map .integer
  | .float => (Plain.decimal? text).map .decimal

/-- What a scalar stands for.  A tag of the document's own leaves that to its content. -/
def resolveScalar? (tag : Option Tag) (style : Style) (text : String) : Option Data :=
  match tag with
  | some (.core kind) => kind.resolve? text
  | some .foreign => some (.string text)
  | none | some (.own _) | some .garbled =>
    some (if style = .plain then Plain.resolve text else .string text)

end OData.Yaml
