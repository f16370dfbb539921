/-
What a metadata document depends on.

A document shows the namespace, the types and the relationships of a registry.  What the sets offer
and resolve is no part of it: registries with the same schema have the same document, and find the
same to remark while it is written.

* `Registry.SameSchema` — registries with the same namespace, types and relationships;
* `Registry.SameSchema.document_eq` — **the document depends on the schema alone**.
-/

import OData.Metadata.Document

set_option relaxedAutoImplicit false
set_option autoImplicit false

namespace OData.Registry

/-- Registries with the same namespace, types and relationships. -/
structure SameSchema (registry other : Registry) : Prop where
  schemaName_eq : registry.schemaName = other.schemaName
  types_eq : registry.types = other.types
  type?_eq : ∀ set, registry.type? set = other.type? set
  relationshipsOf_eq : ∀ set, registry.relationshipsOf set = other.relationshipsOf set

namespace SameSchema

variable {registry other : Registry}

theorem setElement_eq (h : SameSchema registry other) (type : EntityType) :
    Metadata.setElement registry type = Metadata.setElement other type := by
  rw [Metadata.setElement, h.schemaName_eq, h.relationshipsOf_eq, Metadata.setElement]

theorem navigationElement_eq (h : SameSchema registry other) (type : EntityType) (field : Field)
    (name : String) (relationship : Relationship) :
    Metadata.navigationElement registry type field name relationship
      = Metadata.navigationElement other type field name relationship := by
  have htype : Metadata.navigationType registry relationship
      = Metadata.navigationType other relationship := by
    rw [Metadata.navigationType, h.schemaName_eq, Metadata.navigationType]
  have hpartner : Metadata.partner? registry type.name relationship.target
      = Metadata.partner? other type.name relationship.target := by
    rw [Metadata.partner?, h.relationshipsOf_eq, Metadata.partner?]
  have hkey : Metadata.referencedName registry relationship.target
      = Metadata.referencedName other relationship.target := by
    rw [Metadata.referencedName, h.type?_eq, Metadata.referencedName]
  rw [Metadata.navigationElement, htype, hpartner, hkey, Metadata.navigationElement]

theorem fieldElements_eq (h : SameSchema registry other) (type : EntityType) (field : Field) :
    Metadata.fieldElements registry type field = Metadata.fieldElements other type field := by
  cases hfield : field.type with
  | scalar kind => simp only [Metadata.fieldElements, hfield]
  | navigation =>
      simp only [Metadata.fieldElements, hfield, relationship?, h.relationshipsOf_eq,
        h.navigationElement_eq]

theorem typeElement_eq (h : SameSchema registry other) (type : EntityType) :
    Metadata.typeElement registry type = Metadata.typeElement other type := by
  rw [Metadata.typeElement, funext (h.fieldElements_eq type), Metadata.typeElement]

/-- **The document depends on the schema alone.** -/
theorem document_eq (h : SameSchema registry other) :
    Metadata.document registry = Metadata.document other := by
  have hschema : Metadata.schema registry = Metadata.schema other := by
    rw [Metadata.schema, h.types_eq, h.schemaName_eq, funext h.setElement_eq,
      funext h.typeElement_eq, Metadata.schema]
  rw [Metadata.document, hschema, Metadata.document]

end SameSchema

end OData.Registry
