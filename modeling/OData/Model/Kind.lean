/-
Kinds of plain fields.

A field declares its kind by a word.  Several words mean the same kind, in any case and with blanks
around them; a word that means none is kept as it was written and treated as a string.

* `ScalarKind` — the kinds;
* `ScalarKind.ofDeclared` — the kind that a word declares;
* `ScalarKind.edmName`, `ScalarKind.display` — its name in the metadata, and to show.
-/

import OData.Text.Blank
import OData.Text.Letter

set_option relaxedAutoImplicit false
set_option autoImplicit false

namespace OData

/-- The kind of a plain field. -/
inductive ScalarKind where
  | string
  | int32
  | decimal
  | boolean
  /-- A kind without a meaning here, as it was declared. -/
  | other (declared : String)
deriving DecidableEq

namespace ScalarKind

/-- The kind that a word declares. -/
def ofDeclared (word : String) : ScalarKind :=
  let bare := String.ofList (Text.lower (Text.trim word.toList))
  if ["string", "str", "text"].contains bare then string
  else if ["int", "int32", "int64", "integer", "i32", "i64"].contains bare then int32
  else if ["decimal", "float", "double", "f64", "number"].contains bare then decimal
  else if ["bool", "boolean"].contains bare then boolean
  else other word

/-- The name of a kind among the primitive types of the metadata. -/
def edmName : ScalarKind → String
  | string => "String"
  | int32 => "Int32"
  | decimal => "Decimal"
  | boolean => "Boolean"
  | other _ => "String"

/-- The name of a kind to show. -/
def display : ScalarKind → String
  | string => "string"
  | int32 => "int32"
  | decimal => "decimal"
  | boolean => "boolean"
  | other declared => declared

end ScalarKind

end OData
