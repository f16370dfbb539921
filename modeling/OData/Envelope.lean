/-
Envelopes: what is sent around records.

A collection is sent as an object with the context and the list of its records; a single record as
its own object with the context in front.  The context names the entity set in the metadata.  A
field that is itself called like the context gives way to it.

* `CollectionEnvelope`, `EntityEnvelope` — the two envelopes;
* `CollectionEnvelope.toJson`, `EntityEnvelope.toJson` — what is sent.
-/

import OData.Field.Value

set_option relaxedAutoImplicit false
set_option autoImplicit false

namespace OData

/-- The name of the member that holds the context. -/
def contextKey : String := "@odata.context"

/-- The records of an entity set, and their context. -/
structure CollectionEnvelope where
  context : String
  records : List FieldList

/-- One record of an entity set, and its context. -/
structure EntityEnvelope where
  context : String
  record : FieldList

namespace CollectionEnvelope

/-- The envelope of some records of an entity set. -/
def ofSet (set : String) (records : List FieldList) : CollectionEnvelope :=
  ⟨"$metadata#" ++ set, records⟩

/-- What is sent for a collection. -/
def toJson (envelope : CollectionEnvelope) : Json :=
  .object
    [(contextKey, .string envelope.context),
      ("value", .array (envelope.records.map FieldList.toJson))]

end CollectionEnvelope

namespace EntityEnvelope

/-- The envelope of a record of an entity set. -/
def ofSet (set : String) (record : FieldList) : EntityEnvelope :=
  ⟨"$metadata#" ++ set ++ "/$entity", record⟩

/-- What is sent for a record. -/
def toJson (envelope : EntityEnvelope) : Json :=
  .object ((contextKey, .string envelope.context) ::
    FieldList.members (envelope.record.fields.filter fun field => field.1 != contextKey))

end EntityEnvelope

end OData
