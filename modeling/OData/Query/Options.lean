/-
System query options.

A query asks for a window (`$skip`, `$top`), for related records (`$expand`) and for fields
(`$select`).  This module holds what a query asks for; how it is written is the business of
`OData.Query.Value`, `OData.Query.Assignment` and `OData.Query.Nested`.

* `Query.SystemOption` — the four names, and `SystemOption.ofName?`, which recognises them;
* `Query.ExpandItem` — one term of `$expand`;
* `Query.Options` — the options of one query.
-/

import OData.Text.Blank
import OData.Text.Letter

set_option relaxedAutoImplicit false
set_option autoImplicit false

namespace OData.Query

open Text

/-- The options with a meaning. -/
inductive SystemOption where
  | skip
  | top
  | expand
  | select
deriving DecidableEq

/-- The option with a given name: blanks around it and the case of its letters do not matter, the
dollar sign does. -/
def SystemOption.ofName? (name : List Char) : Option SystemOption :=
  match trim name with
  | '$' :: bare =>
    if sameLetters bare "skip".toList then some skip
    else if sameLetters bare "top".toList then some top
    else if sameLetters bare "expand".toList then some expand
    else if sameLetters bare "select".toList then some select
    else none
  | _ => none

/-- One term of `$expand`: a relationship and the text in its parentheses. -/
structure ExpandItem where
  /-- The relationship. -/
  name : String
  /-- The text in parentheses, empty without any. -/
  subQuery : String
deriving DecidableEq

/-- The options of one query. -/
structure Options where
  /-- Records to leave out at the start. -/
  skip : Nat := 0
  /-- The greatest number of records, if there is a limit. -/
  top : Option Nat := none
  /-- The terms of `$expand`, each relationship once. -/
  expand : List ExpandItem := []
  /-- The paths of `$select`. -/
  select : List String := []
deriving DecidableEq

namespace Options

/-- Whether a relationship is asked for at this level. -/
def expands (options : Options) (relationship : String) : Bool :=
  options.expand.any (·.name == relationship)

/-- Whether the options change nothing. -/
def isNoop (options : Options) : Bool :=
  options.skip == 0 && options.top.isNone && options.expand.isEmpty && options.select.isEmpty

end Options

end OData.Query
