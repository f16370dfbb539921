/-
What a YAML document says, whatever it is about.

* `Yaml.Data` — the values;
* `Yaml.Data.same` — whether two values are equal: numbers by their values, but an integer is never
  a decimal, and mappings without regard to order;
* `Yaml.Data.fits` — whether an integer is in the range of 64 bits.
-/

import OData.Decimal.Basic

set_option relaxedAutoImplicit false
set_option autoImplicit false

namespace OData.Yaml

/-- A value. -/
inductive Data where
  | null
  | bool (value : Bool)
  | integer (value : Int)
  | decimal (value : Decimal)
  | string (value : String)
  | sequence (items : List Data)
  | mapping (members : List (Data × Data))
  /-- A value with a tag of its own. -/
  | tagged (tag : String) (value : Data)
deriving Inhabited

namespace Data

mutual

/-- Whether two values are equal. -/
def same : Data → Data → Bool
  | null, null => true
  | bool a, bool b => a == b
  | integer a, integer b => a == b
  | decimal a, decimal b => a.sameNumber b
  | string a, string b => a == b
  | sequence a, sequence b => sameItems a b
  | mapping a, mapping b => a.length == b.length && includes a b
  | tagged t a, tagged u b => t == u && same a b
  | _, _ => false

/-- Whether the items of two sequences are equal, one by one. -/
def sameItems : List Data → List Data → Bool
  | [], [] => true
  | a :: as, b :: bs => same a b && sameItems as bs
  | _, _ => false

/-- Whether each member of a mapping equals one of another. -/
def includes : List (Data × Data) → List (Data × Data) → Bool
  | [], _ => true
  | (key, value) :: rest, bs =>
    (bs.any fun b => same key b.1 && same value b.2) && includes rest bs

end

/-- Whether an integer can be loaded: it is one of 64 bits, with a sign or without. -/
def fits (n : Int) : Bool := -(Nat.pow 2 63 : Int) ≤ n && n < (Nat.pow 2 64 : Int)

end Data

end OData.Yaml
