/-
Service definitions as JSON.

* `Definition.toJson` — a definition with all of its members, those with a default included.
-/

import OData.Definition.Basic

set_option relaxedAutoImplicit false
set_option autoImplicit false

namespace OData

/-- A value that may be missing, written as null then. -/
def Json.orNull {α : Type} (write : α → Json) : Option α → Json
  | none => .null
  | some a => write a

/-- A natural number that may be missing. -/
def Json.optionalNat : Option Nat → Json := Json.orNull fun n => .int n

/-- The members of a field definition. -/
def FieldDefinition.toJson (field : FieldDefinition) : Json :=
  .object
    [("name", .string field.name), ("type", .string field.typeWord), ("key", .bool field.isKey),
      ("not_null", .bool field.notNull), ("expand", Json.orNull .string field.expandOnly),
      ("ref", Json.orNull .string field.reference),
      ("display_name", Json.orNull .string field.displayName),
      ("max_length", Json.optionalNat field.maxLength),
      ("precision", Json.optionalNat field.precision), ("scale", Json.optionalNat field.scale)]

/-- The members of the capabilities of a set. -/
def Capabilities.toJson (capabilities : Capabilities) : Json :=
  .object
    [("collection", .bool capabilities.collection), ("by_id", .bool capabilities.byId),
      ("expand", .bool capabilities.expand)]

/-- The members of a set definition. -/
def SetDefinition.toJson (set : SetDefinition) : Json :=
  .object
    [("fields", .array (set.fields.map FieldDefinition.toJson)),
      ("capabilities", set.capabilities.toJson), ("records", .array (set.records.map .object))]

/-- The members of a relationship definition. -/
def RelationshipDefinition.toJson (r : RelationshipDefinition) : Json :=
  .object
    [("from", .string r.source), ("name", .string r.name), ("target", .string r.target),
      ("cardinality", .string r.cardinality.label),
      ("foreign_key", Json.orNull .string r.foreignKey)]

/-- The members of a service definition. -/
def Definition.toJson (definition : Definition) : Json :=
  .object
    [("version", .string definition.version), ("namespace", .string definition.schemaName),
      ("description", Json.orNull .string definition.description),
      ("entity_sets", .object (definition.entitySets.map fun (name, set) => (name, set.toJson))),
      ("relationships", .array (definition.relationships.map RelationshipDefinition.toJson))]

end OData
