/-
The registry: which entity sets there are, and what each of them can do.

A set offers its records as a whole, one by one, both or neither, and a capability that resolves
relationships of its records.  Sets and relationships are registered one after the other; a later
registration of a name replaces the earlier one in its place.  A relationship may be registered for
a set that is not, which only draws a warning.

* `Related`, `Capability`, `Handler` — what a set can do;
* `Registration`, `Registry` — what is registered, and the result;
* `Registry.sets` — the entity sets by name, in order of first registration;
* `Registry.register`, `Registry.relate`, `Registry.ofRegistrations` — building a registry;
* `Registry.handler`, `Registry.type?`, `Registry.capability`, `Registry.relationship?` — asking it;
* `Registry.dangling` — relationships of or to sets that are not registered.
-/

import OData.Event
import OData.Fault
import OData.Indexed
import OData.Journal
import OData.Model.Record

set_option relaxedAutoImplicit false
set_option autoImplicit false

namespace OData

/-! ### What a set can do -/

/-- The records that a relationship of a record leads to. -/
inductive Related where
  | one (record : Record)
  | many (records : List Record)

/-- The form of related records in messages. -/
def Related.display : Related → String
  | one record => "One(" ++ record.type.name ++ ")"
  | many records => "Many(" ++ toString records.length ++ " records)"

/-- Resolves a relationship of a record.  It is given the field list of the record as it stands, the
relationship and the text in the term's parentheses, and may answer that it cannot. -/
abbrev Capability : Type := FieldList → String → String → Option Related

/-- The capability that resolves nothing. -/
def Capability.none : Capability := fun _ _ _ => Option.none

/-- What an entity set can do. -/
structure Handler where
  /-- All records, if the set offers them. -/
  collection : Option (List Record) := none
  /-- The record of a key, if the set offers that. -/
  byId : Option (String → Option Record) := none
  /-- Resolves relationships. -/
  expand : Capability := Capability.none

/-- The form of a handler in messages. -/
def Handler.display (handler : Handler) : String :=
  let flag (b : Bool) := if b then "true" else "false"
  "EntityHandler \x7b collection: " ++ flag handler.collection.isSome ++ ", by_id: " ++
    flag handler.byId.isSome ++ ", .. \x7d"

/-! ### Registration -/

/-- A registered entity set. -/
structure EntitySet where
  type : EntityType
  handler : Handler

/-- The name of an entity set is that of its type. -/
def EntitySet.name (entitySet : EntitySet) : String := entitySet.type.name

/-- The entity sets and relationships of a schema. -/
structure Registry where
  /-- The namespace of the schema. -/
  schemaName : String
  /-- The entity sets in order of first registration, with the place of each name. -/
  table : Indexed EntitySet.name := .empty
  /-- The relationships of each set in order of first registration. -/
  relationships : Ordered (Ordered Relationship) := []

/-- One registration. -/
inductive Registration where
  /-- An entity set under the name of its type. -/
  | set (type : EntityType) (handler : Handler)
  /-- A relationship of an entity set. -/
  | relationship (set name : String) (relationship : Relationship)

namespace Registry

/-- The registry of a schema without entity sets. -/
def empty (schemaName : String) : Registry := { schemaName }

/-- The entity sets by name, in order of first registration. -/
def sets (registry : Registry) : Ordered EntitySet := registry.table.toOrdered

/-- Registers an entity set under the name of its type. -/
def register (registry : Registry) (type : EntityType) (handler : Handler) : Registry :=
  { registry with table := registry.table.put ⟨type, handler⟩ }

/-- The relationships of a set, none if it has never had any. -/
def relationshipsOf (registry : Registry) (set : String) : Ordered Relationship :=
  (Ordered.get? set registry.relationships).getD []

/-- Registers a relationship of an entity set. -/
def relate (registry : Registry) (set name : String) (relationship : Relationship) : Registry :=
  { registry with
    relationships := registry.relationships.insert set
      ((registry.relationshipsOf set).insert name relationship) }

/-- Makes one registration. -/
def apply (registry : Registry) : Registration → Registry
  | .set type handler => registry.register type handler
  | .relationship set name relationship => registry.relate set name relationship

/-- The event of making one registration. -/
def eventOf (registry : Registry) : Registration → Event
  | .set type _ => if registry.table.contains type.name then .replaced type.name
    else .registered type.name
  | .relationship set name relationship => .related set name relationship

/-- The registry that some registrations build up. -/
def ofRegistrations (schemaName : String) (registrations : List Registration) : Registry :=
  registrations.foldl apply (empty schemaName)

/-- The events of making some registrations one after the other. -/
def eventsOf (registry : Registry) : List Registration → List Event
  | [] => []
  | r :: rest => registry.eventOf r :: (registry.apply r).eventsOf rest

/-! ### Asking -/

/-- The names of the sets, in order. -/
def setNames (registry : Registry) : List String := registry.table.items.map EntitySet.name

/-- The types of the sets, in order. -/
def types (registry : Registry) : List EntityType := registry.table.items.map (·.type)

/-- Whether a set is registered. -/
def contains (registry : Registry) (set : String) : Bool := registry.table.contains set

/-- The registered set of a name. -/
def set? (registry : Registry) (set : String) : Option EntitySet := registry.table.get? set

/-- The type of a set. -/
def type? (registry : Registry) (set : String) : Option EntityType :=
  (registry.set? set).map (·.type)

/-- The handler of a set. -/
def handler (registry : Registry) (set : String) : Except Fault Handler :=
  match registry.set? set with
  | some entitySet => .ok entitySet.handler
  | none => .error (.unknownSet set)

/-- The capability of a set; one that is not registered resolves nothing. -/
def capability (registry : Registry) (set : String) : Capability :=
  match registry.set? set with
  | some entitySet => entitySet.handler.expand
  | none => Capability.none

/-- The relationships of a set, if it has ever had any. -/
def relationships? (registry : Registry) (set : String) : Option (Ordered Relationship) :=
  Ordered.get? set registry.relationships

/-- A relationship of a set. -/
def relationship? (registry : Registry) (set name : String) : Option Relationship :=
  Ordered.get? name (registry.relationshipsOf set)

/-- Warnings about relationships of or to sets that are not registered. -/
def dangling (registry : Registry) : List Event :=
  registry.relationships.flatMap fun (set, relationships) =>
    (if registry.contains set then [] else [.unknownSource set]) ++
      relationships.filterMap fun (name, relationship) =>
        if registry.contains relationship.target then none
        else some (.unknownTarget set name relationship.target)

/-- The form of a registry in messages. -/
def display (registry : Registry) : String :=
  "Registry \x7b namespace: " ++ Text.quoted registry.schemaName ++ ", entity_sets: " ++
    Text.quotedList registry.setNames ++ " \x7d"

@[simp] theorem sets_empty (schemaName : String) : (empty schemaName).sets = [] := rfl

theorem sets_register (registry : Registry) (type : EntityType) (handler : Handler) :
    (registry.register type handler).sets = registry.sets.insert type.name ⟨type, handler⟩ :=
  registry.table.toOrdered_put ⟨type, handler⟩

@[simp] theorem sets_relate (registry : Registry) (set name : String)
    (relationship : Relationship) : (registry.relate set name relationship).sets = registry.sets :=
  rfl

theorem set?_eq (registry : Registry) (set : String) :
    registry.set? set = Ordered.get? set registry.sets := registry.table.get?_eq set

theorem contains_eq (registry : Registry) (set : String) :
    registry.contains set = registry.sets.contains set := registry.table.contains_eq set

theorem types_eq (registry : Registry) : registry.types = registry.sets.map (·.2.type) := by
  rw [sets, Indexed.toOrdered, List.map_map]
  rfl

theorem names_types (registry : Registry) : registry.types.map (·.name) = registry.sets.keys := by
  rw [sets, Indexed.keys_toOrdered, types, List.map_map]
  rfl

/-- A registered type is found by its own name. -/
theorem type?_of_mem_types (registry : Registry) {type : EntityType} (h : type ∈ registry.types) :
    registry.type? type.name = some type := by
  obtain ⟨entitySet, hmem, rfl⟩ := List.mem_map.1 h
  exact congrArg (Option.map EntitySet.type) (registry.table.get?_of_mem hmem)

@[simp] theorem set?_empty (schemaName set : String) : (empty schemaName).set? set = none := rfl

theorem set?_register (registry : Registry) (type : EntityType) (handler : Handler) (set : String) :
    (registry.register type handler).set? set =
      if set = type.name then some ⟨type, handler⟩ else registry.set? set := by
  rw [set?_eq, sets_register, Ordered.get?_insert, set?_eq]

@[simp] theorem set?_relate (registry : Registry) (set name : String)
    (relationship : Relationship) (other : String) :
    (registry.relate set name relationship).set? other = registry.set? other := rfl

end Registry

end OData
