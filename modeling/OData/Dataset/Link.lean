/-
Links: relationships resolved by comparing fields.

A relationship to one record compares the foreign key of the record at hand with the keys of the
target; a relationship to many compares the key of the record at hand with the foreign keys of the
target.  The value at hand is taken from the field list, under its wire name; the values of the
target are taken from its records, under their declared names.

* `Link` — how one relationship is resolved;
* `Link.ofRelationship?` — the link of a declared relationship;
* `linksOf` — the links of an entity set;
* `Dataset.capability` — the capability that resolves relationships by their links.
-/

import OData.Dataset.Basic
import OData.Registry.Basic

set_option relaxedAutoImplicit false
set_option autoImplicit false

namespace OData

/-- How a relationship is resolved. -/
structure Link where
  /-- The entity set that it leads to. -/
  target : String
  cardinality : Cardinality
  /-- The wire name of the field at hand: a foreign key, or the key of the set. -/
  localName : String
  /-- The declared name of the foreign key on the target, for a relationship to many. -/
  remoteName : String
deriving DecidableEq

namespace Link

/-- The link of a relationship that starts from a set of some type, if its foreign key is known. -/
def ofRelationship? (definition : Definition) (type : EntityType) (r : RelationshipDefinition) :
    Option Link :=
  (definition.foreignKey? r).map fun key =>
    match r.cardinality with
    | .oneToOne => ⟨r.target, .oneToOne, type.wireNameOf key, ""⟩
    | .oneToMany => ⟨r.target, .oneToMany, type.wireNameOf type.keyName, key⟩

/-- The records that a link leads to from a field list.  A missing or null value leads nowhere. -/
def resolve (dataset : Dataset) (link : Link) (record : FieldList) : Option Related :=
  ((record.get? link.localName).bind Value.key?).bind fun key =>
    match link.cardinality with
    | .oneToOne => (dataset.find? link.target key).map fun found => .one found.toRecord
    | .oneToMany =>
      some (.many (((dataset.records link.target).filter fun other =>
        other.keyOf? link.remoteName == some key).map SeedRecord.toRecord))

end Link

/-- The named links of the relationships that start from a set, in the order of declaration. -/
def linkList (definition : Definition) (type : EntityType) : List (String × Link) :=
  (definition.relationshipsFrom type.name).filterMap fun r =>
    (Link.ofRelationship? definition type r).map fun link => (r.name, link)

/-- The links of an entity set by the names of their relationships. -/
def linksOf (definition : Definition) (type : EntityType) : Ordered Link :=
  Ordered.ofList (linkList definition type)

/-- The events of finding the links of an entity set. -/
def linkEvents (definition : Definition) (type : EntityType) : List Event :=
  (linkList definition type).map fun (name, link) =>
    .linked type.name name link.target link.cardinality link.localName link.remoteName

/-- The capability that resolves relationships by links. -/
def Dataset.capability (dataset : Dataset) (links : Ordered Link) : Capability :=
  fun record relationship _ =>
    (Ordered.get? relationship links).bind fun link => link.resolve dataset record

end OData
