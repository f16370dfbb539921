/-
Why a request is refused.

A request names an entity set and perhaps one of its records; it fails when the set or the record is
unknown, or when the set does not offer the fetch that the request needs.  Query options never fail
a request, because a malformed one counts as absent.  Only a caller that asks for strict reading
hears of it.

* `Fetch` — the two ways of reading an entity set;
* `Fault` — the causes;
* `Fault.status`, `Fault.message` — the HTTP status and the text of each.
-/

import OData.Text.Quoted

set_option relaxedAutoImplicit false
set_option autoImplicit false

namespace OData

/-- A way of reading the records of an entity set. -/
inductive Fetch where
  /-- All records. -/
  | collection
  /-- The record of one key. -/
  | byId
deriving DecidableEq

/-- The name of a fetch in messages. -/
def Fetch.label : Fetch → String
  | collection => "collection fetch"
  | byId => "by-id fetch"

/-- A reason for refusing a request. -/
inductive Fault where
  /-- No entity set has this name. -/
  | unknownSet (set : String)
  /-- The entity set does not offer this fetch. -/
  | notOffered (set : String) (fetch : Fetch)
  /-- The entity set has no record of this key. -/
  | unknownRecord (set : String) (id : String)
  /-- The value of this query option cannot be understood. -/
  | malformedOption (option : String) (value : String)
deriving DecidableEq

namespace Fault

/-- The HTTP status that answers a fault. -/
def status : Fault → Nat
  | unknownSet _ => 404
  | notOffered _ _ => 501
  | unknownRecord _ _ => 404
  | malformedOption _ _ => 400

/-- The text that answers a fault. -/
def message : Fault → String
  | unknownSet set => "entity set not found: " ++ set
  | notOffered set fetch => fetch.label ++ " not implemented for entity set " ++ set
  | unknownRecord set id => "no " ++ set ++ " record with id " ++ id
  | malformedOption option value =>
    "malformed query option " ++ option ++ ": " ++ Text.quoted value

end Fault

end OData
