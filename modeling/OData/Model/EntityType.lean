/-
Entity types: what the records of an entity set look like.

A type declares its fields in the order in which they are written.  A field is plain or stands for a
relationship; it may be part of the key, and it may be shown under another name, its wire name.  An
expand-only field is written only when a query expands its relationship.

* `Field`, `EntityType` — declarations;
* `Field.wireName`, `Field.relationship?` — the name of a field on the wire, and the relationship
  that a navigation field stands for;
* `EntityType.find?`, `EntityType.keyFields`, `EntityType.keyName` — looking up fields;
* `Cardinality`, `Relationship` — the relationships between entity sets.
-/

import OData.Model.Kind
import OData.Ordered

set_option relaxedAutoImplicit false
set_option autoImplicit false

namespace OData

/-! ### Relationships -/

/-- How many records a relationship leads to. -/
inductive Cardinality where
  | oneToOne
  | oneToMany
deriving DecidableEq

/-- The name of a cardinality. -/
def Cardinality.label : Cardinality → String
  | oneToOne => "one-to-one"
  | oneToMany => "one-to-many"

/-- Where a relationship of an entity set leads. -/
structure Relationship where
  /-- The entity set that it leads to. -/
  target : String
  cardinality : Cardinality
deriving DecidableEq

/-! ### Fields -/

/-- What a field holds. -/
inductive FieldType where
  /-- A plain value. -/
  | scalar (kind : ScalarKind)
  /-- The records that a relationship leads to. -/
  | navigation
deriving DecidableEq

/-- A declared field. -/
structure Field where
  /-- The declared name. -/
  name : String
  type : FieldType
  /-- Part of the key. -/
  isKey : Bool := false
  /-- Declared never to be null. -/
  notNull : Bool := false
  /-- The relationship that must be expanded for the field to be written. -/
  expandOnly : Option String := none
  /-- The entity set that a foreign key refers to. -/
  reference : Option String := none
  /-- Another name for the wire. -/
  displayName : Option String := none
  maxLength : Option Nat := none
  precision : Option Nat := none
  scale : Option Nat := none
deriving DecidableEq

namespace Field

/-- A plain field of some kind. -/
def scalar (name : String) (kind : ScalarKind) : Field := { name, type := .scalar kind }

/-- A field that stands for the relationship of its own name. -/
def navigation (name : String) : Field :=
  { name, type := .navigation, expandOnly := some name }

/-- The name of the field on the wire. -/
def wireName (field : Field) : String := field.displayName.getD field.name

/-- Whether the field stands for a relationship. -/
def isNavigation (field : Field) : Bool := field.type = .navigation

/-- The relationship that a navigation field stands for. -/
def relationship? (field : Field) : Option String :=
  match field.type with
  | .navigation => some (field.expandOnly.getD field.name)
  | .scalar _ => none

end Field

/-! ### Entity types -/

/-- The declaration of an entity set's records. -/
structure EntityType where
  /-- The name of the entity set. -/
  name : String
  /-- The fields in declaration order. -/
  fields : List Field := []
  /-- The targets of the declared relationships. -/
  relationships : Ordered String := []
deriving DecidableEq, Inhabited

namespace EntityType

/-- The field of a declared name. -/
def find? (type : EntityType) (name : String) : Option Field :=
  type.fields.find? (·.name == name)

/-- The fields of the key, in declaration order. -/
def keyFields (type : EntityType) : List Field := type.fields.filter (·.isKey)

/-- The declared name of the first key field, or `ID` if there is none. -/
def keyName (type : EntityType) : String := (type.keyFields.head?.map (·.name)).getD "ID"

/-- The wire name of a field given by its declared name; an unknown name stands for itself. -/
def wireNameOf (type : EntityType) (name : String) : String :=
  ((type.find? name).map (·.wireName)).getD name

end EntityType

end OData
