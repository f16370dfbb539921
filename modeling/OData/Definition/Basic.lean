/-
Service definitions.

A definition declares the entity sets of a service, with their fields, capabilities and seed
records, and the relationships between them.  This module holds what is declared and what follows
from it without any checking: the type of a set, the partner of a relationship, and the field by
which a relationship is resolved.

* `FieldDefinition`, `SetDefinition`, `RelationshipDefinition`, `Definition` — what is declared;
* `FieldDefinition.toField`, `Definition.typeOf`, `Definition.type?` — the declared types;
* `Definition.partner?` — the first relationship that leads back;
* `Definition.foreignKey?` — the explicit or conventional foreign key.
-/

import OData.Json.Basic
import OData.Model.EntityType

set_option relaxedAutoImplicit false
set_option autoImplicit false

namespace OData

/-! ### Fields -/

/-- A declared field, with the words that declare it. -/
structure FieldDefinition where
  name : String
  /-- The word for the kind of the field, or `navigation`. -/
  typeWord : String := "string"
  isKey : Bool := false
  notNull : Bool := false
  /-- The relationship that must be expanded for the field to be written. -/
  expandOnly : Option String := none
  /-- The entity set that a foreign key refers to. -/
  reference : Option String := none
  /-- Another name for the wire. -/
  displayName : Option String := none
  maxLength : Option Nat := none
  precision : Option Nat := none
  scale : Option Nat := none
deriving DecidableEq

namespace FieldDefinition

/-- Whether the field stands for a relationship. -/
def isNavigation (field : FieldDefinition) : Bool :=
  Text.sameLetters field.typeWord.toList "navigation".toList

/-- The relationship of a navigation field or an expand-only field. -/
def relationship? (field : FieldDefinition) : Option String :=
  match field.expandOnly with
  | some relationship => some relationship
  | none => if field.isNavigation then some field.name else none

/-- The field that is declared. -/
def toField (definition : FieldDefinition) : Field where
  name := definition.name
  type := if definition.isNavigation then .navigation else .scalar (.ofDeclared definition.typeWord)
  isKey := definition.isKey
  notNull := definition.notNull
  expandOnly := definition.relationship?
  reference := definition.reference
  displayName := definition.displayName
  maxLength := definition.maxLength
  precision := definition.precision
  scale := definition.scale

theorem exists_relationship?_of_isNavigation {field : FieldDefinition}
    (h : field.isNavigation = true) : ∃ name, field.relationship? = some name := by
  rw [relationship?]
  cases field.expandOnly with
  | none => exact ⟨field.name, if_pos h⟩
  | some relationship => exact ⟨relationship, rfl⟩

/-- A field of a type stands for a relationship if it is declared as a navigation field of it. -/
theorem relationship?_toField_iff {field : FieldDefinition} {name : String} :
    field.toField.relationship? = some name ↔
      field.isNavigation = true ∧ field.relationship? = some name := by
  cases hnavigation : field.isNavigation with
  | false => simp [toField, Field.relationship?, hnavigation]
  | true =>
      obtain ⟨bound, hbound⟩ := exists_relationship?_of_isNavigation hnavigation
      simp [toField, Field.relationship?, hnavigation, hbound]

end FieldDefinition

/-! ### Entity sets and relationships -/

/-- What may be asked of an entity set. -/
structure Capabilities where
  collection : Bool := true
  byId : Bool := true
  expand : Bool := true
deriving DecidableEq

/-- A declared entity set. -/
structure SetDefinition where
  /-- The fields in declaration order. -/
  fields : List FieldDefinition
  capabilities : Capabilities := {}
  /-- The seed records by declared field names. -/
  records : List (Ordered Json) := []

/-- Whether a set declares a plain field of some name. -/
def SetDefinition.hasPlainField (set : SetDefinition) (name : String) : Bool :=
  set.fields.any fun field => field.name == name && !field.isNavigation

/-- A declared relationship. -/
structure RelationshipDefinition where
  /-- The entity set that the relationship starts from. -/
  source : String
  name : String
  /-- The entity set that it leads to. -/
  target : String
  cardinality : Cardinality
  /-- The field that resolves it: of the source if it leads to one record, of the target if it
  leads to many. -/
  foreignKey : Option String := none
deriving DecidableEq

/-- A service definition. -/
structure Definition where
  version : String
  /-- The namespace of the schema. -/
  schemaName : String := "CatalogService"
  description : Option String := none
  entitySets : Ordered SetDefinition := []
  relationships : List RelationshipDefinition := []

namespace Definition

/-- A declared entity set by its name. -/
def set? (definition : Definition) (name : String) : Option SetDefinition :=
  Ordered.get? name definition.entitySets

/-- The relationships that start from a set, in order. -/
def relationshipsFrom (definition : Definition) (set : String) : List RelationshipDefinition :=
  definition.relationships.filter (·.source == set)

/-- The record type of an entity set. -/
def typeOf (definition : Definition) (name : String) (set : SetDefinition) : EntityType where
  name
  fields := set.fields.map (·.toField)
  relationships :=
    Ordered.ofList ((definition.relationshipsFrom name).map fun r => (r.name, r.target))

/-- The record type of an entity set by its name. -/
def type? (definition : Definition) (name : String) : Option EntityType :=
  (definition.set? name).map (definition.typeOf name)

/-- The first relationship from the target of a relationship back to its source. -/
def partner? (definition : Definition) (relationship : RelationshipDefinition) :
    Option RelationshipDefinition :=
  definition.relationships.find? fun r =>
    r.source == relationship.target && r.target == relationship.source

/-- The field that resolves a relationship.  Without an explicit one it is named after the
relationship itself if that leads to one record, and after its partner if it leads to many; then
there is none if there is no partner. -/
def foreignKey? (definition : Definition) (relationship : RelationshipDefinition) :
    Option String :=
  match relationship.foreignKey with
  | some key => some key
  | none =>
    match relationship.cardinality with
    | .oneToOne => some (relationship.name ++ "_ID")
    | .oneToMany => (definition.partner? relationship).map (·.name ++ "_ID")

end Definition

end OData
