/-
The seed records of a definition, ready to be looked up.

Each entity set keeps its records in the order of the definition.  Only plain values are kept;
validation refuses the others beforehand.  A record is found by the text of its first key field, and
the first of several records with the same key is the one that is found.

* `SeedRecord`, `Dataset` — the records;
* `Dataset.ofDefinition` — the records of a definition;
* `Dataset.records`, `Dataset.find?` — all records of a set, and the one of a key.
-/

import OData.Definition.Basic
import OData.Model.Record

set_option relaxedAutoImplicit false
set_option autoImplicit false

namespace OData

/-- A record of a definition: its type and its plain values by declared field names. -/
structure SeedRecord where
  type : EntityType
  values : Ordered Scalar

namespace SeedRecord

/-- The value of a declared field. -/
def get? (record : SeedRecord) (field : String) : Option Scalar := Ordered.get? field record.values

/-- The text of the value of a declared field, by which keys are matched. -/
def keyOf? (record : SeedRecord) (field : String) : Option String :=
  (record.get? field).bind Scalar.key?

/-- The record as requests see it. -/
def toRecord (record : SeedRecord) : Record :=
  ⟨record.type, fun name => (record.get? name).map .scalar⟩

@[simp] theorem type_toRecord (record : SeedRecord) : record.toRecord.type = record.type := rfl

@[simp] theorem value?_toRecord (record : SeedRecord) (name : String) :
    record.toRecord.value? name = (record.get? name).map .scalar := rfl

/-- The plain values of a declared record. -/
def plainValues (members : Ordered Json) : Ordered Scalar :=
  Ordered.ofList (members.filterMap fun (name, value) =>
    (Scalar.ofJson? value).map fun scalar => (name, scalar))

end SeedRecord

/-- The records of one entity set. -/
structure SeedSet where
  type : EntityType
  records : List SeedRecord

/-- The records of all entity sets. -/
abbrev Dataset : Type := Ordered SeedSet

namespace Dataset

/-- The records that a definition declares. -/
def ofDefinition (definition : Definition) : Dataset :=
  definition.entitySets.map fun (name, set) =>
    let type := definition.typeOf name set
    (name, ⟨type, set.records.map fun members => ⟨type, SeedRecord.plainValues members⟩⟩)

/-- The records of a set; one that is not declared has none. -/
def records (dataset : Dataset) (set : String) : List SeedRecord :=
  ((Ordered.get? set dataset).map (·.records)).getD []

/-- The type of a set. -/
def type? (dataset : Dataset) (set : String) : Option EntityType :=
  (Ordered.get? set dataset).map (·.type)

/-- The first record of a set with some key. -/
def find? (dataset : Dataset) (set id : String) : Option SeedRecord :=
  (Ordered.get? set dataset).bind fun seeds =>
    seeds.records.find? fun record => record.keyOf? seeds.type.keyName == some id

end Dataset

end OData
