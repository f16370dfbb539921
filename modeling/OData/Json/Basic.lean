/-
JSON values whose objects keep the order of their members.

Numbers are integers of any size or decimals, and the two stay apart: `1` and `1.0` are different
values, although they may be written alike.

* `Json` — the values;
* `Json.isContainer` — whether a value is an array or an object;
* `Json.sortMembers` — an object's members in the order of their names.
-/

import OData.Decimal.Basic
import OData.Ordered

set_option relaxedAutoImplicit false
set_option autoImplicit false

namespace OData

/-- A JSON value. -/
inductive Json where
  | null
  | bool (value : Bool)
  | int (value : Int)
  | decimal (value : Decimal)
  | string (value : String)
  | array (items : List Json)
  | object (members : List (String × Json))
deriving Inhabited

namespace Json

/-- Whether a value is an array or an object. -/
def isContainer : Json → Bool
  | array _ => true
  | object _ => true
  | _ => false

/-- Members in increasing order of their names, compared by code points. -/
def sortMembers (members : Ordered Json) : Ordered Json :=
  members.mergeSort fun a b => a.1 ≤ b.1

end Json

end OData
