/-
The metadata document: the schema of a registry in CSDL.

The document lists the entity sets with the targets of their relationships, and their types with
key, properties and navigation properties, all in order of registration and declaration.  A
navigation property is written only if its relationship is registered.  It names its partner, the
first relationship that leads back; and it states a referential constraint if the type declares a
field named like the relationship with `_ID` behind it.

* `Metadata.partner?` — the relationship that leads back;
* `Metadata.setElement`, `Metadata.typeElement`, `Metadata.schema` — the parts of the document;
* `Metadata.document` — the text and its tag.
-/

import OData.Digest.Tag
import OData.Metadata.Xml
import OData.Registry.Basic

set_option relaxedAutoImplicit false
set_option autoImplicit false

namespace OData

/-- A metadata document and its tag. -/
structure Metadata where
  xml : String
  etag : String
deriving DecidableEq

namespace Metadata

/-! ### Entity sets -/

/-- The relationships of a set as the document lists them. -/
def bindingElements (relationships : Ordered Relationship) : List Xml :=
  relationships.map fun (name, relationship) =>
    .leaf "NavigationPropertyBinding" [("Path", name), ("Target", relationship.target)]

/-- The element of an entity set. -/
def setElement (registry : Registry) (type : EntityType) : Xml :=
  let attributes :=
    [("Name", type.name), ("EntityType", registry.schemaName ++ "." ++ type.name)]
  match registry.relationshipsOf type.name with
  | [] => .leaf "EntitySet" attributes
  | relationships => .node "EntitySet" attributes (bindingElements relationships)

/-! ### Entity types -/

/-- An attribute that is left out unless there is a number for it. -/
def optionalNumber (name : String) : Option Nat → List (String × String)
  | none => []
  | some n => [(name, toString n)]

/-- The element of a plain field. -/
def propertyElement (type : EntityType) (field : Field) (kind : ScalarKind) :
    Journal Event Xml := do
  match kind with
  | .other declared => Journal.note (.unknownKind type.name field.name declared)
  | _ => pure ()
  pure (.leaf "Property"
    ([("Name", field.wireName), ("Type", "Edm." ++ kind.edmName)] ++
      (if field.isKey || field.notNull then [("Nullable", "false")] else []) ++
      optionalNumber "MaxLength" field.maxLength ++ optionalNumber "Precision" field.precision ++
      optionalNumber "Scale" field.scale))

/-- The first relationship of a target that leads back to a set. -/
def partner? (registry : Registry) (set target : String) : Option String :=
  ((registry.relationshipsOf target).find? fun r => r.2.target = set).map (·.1)

/-- The type of a navigation property. -/
def navigationType (registry : Registry) (relationship : Relationship) : String :=
  let target := registry.schemaName ++ "." ++ relationship.target
  match relationship.cardinality with
  | .oneToOne => target
  | .oneToMany => "Collection(" ++ target ++ ")"

/-- The wire name of a set's first key field, or `ID`. -/
def referencedName (registry : Registry) (set : String) : String :=
  (((registry.type? set).bind fun type => type.keyFields.head?).map (·.wireName)).getD "ID"

/-- The element of a navigation field whose relationship is registered. -/
def navigationElement (registry : Registry) (type : EntityType) (field : Field) (name : String)
    (relationship : Relationship) : Xml :=
  let attributes :=
    [("Name", field.wireName), ("Type", navigationType registry relationship)] ++
      match partner? registry type.name relationship.target with
      | some partner => [("Partner", partner)]
      | none => []
  match type.find? (name ++ "_ID") with
  | none => .leaf "NavigationProperty" attributes
  | some foreignKey =>
    .node "NavigationProperty" attributes
      [.leaf "ReferentialConstraint"
        [("Property", foreignKey.wireName),
          ("ReferencedProperty", referencedName registry relationship.target)]]

/-- The elements of a field: one, or none for a navigation field without a registered
relationship. -/
def fieldElements (registry : Registry) (type : EntityType) (field : Field) :
    Journal Event (List Xml) :=
  match field.type with
  | .scalar kind => do
    let element ← propertyElement type field kind
    pure [element]
  | .navigation =>
    let name := field.relationship?.getD field.name
    match registry.relationship? type.name name with
    | some relationship => pure [navigationElement registry type field name relationship]
    | none => do
      Journal.note (.unboundNavigation type.name field.name name)
      pure []

/-- The element of the key, which is there even without key fields. -/
def keyElement (type : EntityType) : Xml :=
  .node "Key" [] (type.keyFields.map fun field => .leaf "PropertyRef" [("Name", field.wireName)])

/-- The element of an entity type. -/
def typeElement (registry : Registry) (type : EntityType) : Journal Event Xml := do
  let fields ← Journal.traverse (fieldElements registry type) type.fields
  pure (.node "EntityType" [("Name", type.name)] (keyElement type :: fields.flatten))

/-! ### The document -/

/-- A reference to a vocabulary. -/
def vocabularyElement (uri short schemaName : String) : Xml :=
  .node "edmx:Reference" [("Uri", uri)]
    [.leaf "edmx:Include" [("Alias", short), ("Namespace", schemaName)]]

/-- The vocabularies that every document refers to. -/
def vocabularies : List Xml :=
  [vocabularyElement "https://sap.github.io/odata-vocabularies/vocabularies/Common.xml" "Common"
      "com.sap.vocabularies.Common.v1",
    vocabularyElement
      "https://oasis-tcs.github.io/odata-vocabularies/vocabularies/Org.OData.Core.V1.xml" "Core"
      "Org.OData.Core.V1"]

/-- The element of the whole schema. -/
def schema (registry : Registry) : Journal Event Xml := do
  let types ← Journal.traverse (typeElement registry) registry.types
  pure (.node "Schema"
    [("xmlns", "http://docs.oasis-open.org/odata/ns/edm"), ("Namespace", registry.schemaName)]
    (.node "EntityContainer" [("Name", "EntityContainer")]
      (registry.types.map (setElement registry)) :: types))

/-- The element of the whole document. -/
def root (schema : Xml) : Xml :=
  .node "edmx:Edmx"
    [("Version", "4.0"), ("xmlns:edmx", "http://docs.oasis-open.org/odata/ns/edmx")]
    (vocabularies ++ [.node "edmx:DataServices" [] [schema]])

/-- A document of some text, with its tag. -/
def ofText (xml : String) : Metadata := ⟨xml, Digest.weakTag xml⟩

/-- The metadata document of a registry. -/
def document (registry : Registry) : Journal Event Metadata := do
  let schema ← schema registry
  pure (ofText (root schema).document)

end Metadata

end OData
