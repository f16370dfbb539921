/-
From a definition to a registry.

A valid definition is built into a registry over its seed records: each entity set is registered
with the fetches and the capability that it declares, and then each relationship.

* `Definition.handlerOf` — what a declared entity set can do;
* `Definition.registrations` — all registrations of a definition;
* `Definition.build` — the registry of a definition, or its faults.
-/

import OData.Dataset.Link
import OData.Definition.Validation

set_option relaxedAutoImplicit false
set_option autoImplicit false

namespace OData.Definition

/-- What a declared entity set can do. -/
def handlerOf (definition : Definition) (dataset : Dataset) (name : String) (set : SetDefinition) :
    Handler where
  collection :=
    if set.capabilities.collection then some ((dataset.records name).map SeedRecord.toRecord)
    else none
  byId :=
    if set.capabilities.byId then
      some fun id => (dataset.find? name id).map SeedRecord.toRecord
    else none
  expand :=
    if set.capabilities.expand then
      dataset.capability (linksOf definition (definition.typeOf name set))
    else Capability.none

/-- The registration of a declared entity set, and the events of finding its links. -/
def setRegistration (definition : Definition) (dataset : Dataset)
    (entry : String × SetDefinition) : Journal Event Registration :=
  let (name, set) := entry
  let type := definition.typeOf name set
  { value := .set type (definition.handlerOf dataset name set)
    events := if set.capabilities.expand then linkEvents definition type else [] }

/-- The registration of a declared relationship. -/
def relationshipRegistration (r : RelationshipDefinition) : Registration :=
  .relationship r.source r.name ⟨r.target, r.cardinality⟩

/-- The registrations of a definition: its entity sets, then its relationships. -/
def registrations (definition : Definition) : List (Journal Event Registration) :=
  definition.entitySets.map (definition.setRegistration (Dataset.ofDefinition definition)) ++
    definition.relationships.map fun r => pure (relationshipRegistration r)

/-- Makes some registrations one after the other. -/
def registerAll (registry : Registry) :
    List (Journal Event Registration) → Journal Event Registry
  | [] => pure registry
  | next :: rest => do
    let registration ← next
    Journal.note (registry.eventOf registration)
    registerAll (registry.apply registration) rest

/-- The registry over the seed records of a definition, whether or not it is valid. -/
def toRegistry (definition : Definition) : Journal Event Registry := do
  let registry ← registerAll (Registry.empty definition.schemaName) definition.registrations
  ⟨registry, registry.dangling⟩

/-- The registry over the seed records of a definition, or the faults of the definition. -/
def build (definition : Definition) : Except (List Problem) (Journal Event Registry) :=
  match definition.problems with
  | [] => .ok definition.toRegistry
  | faults => .error faults

/-- The text of several faults, one to a line. -/
def messageOf (faults : List Problem) : String :=
  String.intercalate "\n" (faults.map Problem.message)

theorem value_registerAll (registry : Registry) (rs : List (Journal Event Registration)) :
    (registerAll registry rs).value = (rs.map (·.value)).foldl Registry.apply registry := by
  induction rs generalizing registry with
  | nil => rfl
  | cons r rest ih => simp [registerAll, ih]

theorem value_toRegistry (definition : Definition) :
    definition.toRegistry.value =
      Registry.ofRegistrations definition.schemaName (definition.registrations.map (·.value)) := by
  simp [toRegistry, value_registerAll, Registry.ofRegistrations]

end OData.Definition
