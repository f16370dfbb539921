/-
Records, and the field lists that describe them.

A record knows its type and gives the values of its declared fields by name.  Introspection lists
them in declaration order under their wire names; it leaves out the expand-only fields whose
relationship a query does not ask for, and it marks the fields without a value as absent.

* `Record` — a record;
* `Record.isWritten`, `Record.isWritten_iff` — the fields that are listed;
* `Record.introspect` — its field list, given the relationships that are asked for;
* `Record.key?` — the text of its first key field.
-/

import OData.Field.Value
import OData.Model.EntityType

set_option relaxedAutoImplicit false
set_option autoImplicit false

namespace OData

/-- A record of an entity set. -/
structure Record where
  type : EntityType
  /-- The value of a declared field, if the record has one. -/
  value? : String → Option Value

instance : Inhabited Record := ⟨⟨default, fun _ => none⟩⟩

namespace Record

/-- Whether a field is written when a query asks for some relationships. -/
def isWritten (asked : List String) (field : Field) : Bool :=
  match field.expandOnly with
  | none => true
  | some relationship => asked.contains relationship

/-- A field is written unless it goes with a relationship that is not asked for. -/
theorem isWritten_iff {asked : List String} {field : Field} :
    isWritten asked field = true ↔ ∀ relationship ∈ field.expandOnly, relationship ∈ asked := by
  rw [isWritten]
  cases field.expandOnly <;> simp

/-- The field list of a record when a query asks for some relationships. -/
def introspect (record : Record) (asked : List String) : FieldList :=
  (record.type.fields.filter (isWritten asked)).foldl
    (fun list field => list.insert field.wireName ((record.value? field.name).getD .absent))
    (.new record.type.name)

/-- The text of the first key field, or of `ID` if the type declares no key. -/
def key? (record : Record) : Option String :=
  (record.value? record.type.keyName).bind Value.key?

end Record

end OData
