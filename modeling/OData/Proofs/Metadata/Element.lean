/-
The elements of the metadata document.

Whoever reads the document looks for elements by their kind and by one of their attributes: the
entity type of a name, the entity set of a name, the binding of a relationship.  Inside an entity
type the elements of the fields follow each other behind the key.  These look-ups are made in the
text of a document here, and each of them is told from the registry that the document is written
from.

Main definitions:

* `Xml.childWith?` — an element inside an element;
* `Metadata.fieldElement?` — the element of the field at some place of an entity type;
* `Metadata.boundTarget?` — where the binding of a relationship leads.

Main results:

* `Metadata.fieldElement?_document`, `Metadata.boundTarget?_document` — what is found in the
  document of a registry;
* `Metadata.attribute?_navigationElement` — what a navigation property says;
* `Definition.StandsAt.fieldElement?_document` — **the element of a navigation field**.
-/

import OData.Proofs.Metadata.Declared

set_option relaxedAutoImplicit false
set_option autoImplicit false

namespace OData

/-- The types of a registry are found by their names. -/
theorem Registry.find?_types (registry : Registry) (name : String) :
    (registry.types.find? fun type => type.name = name) = registry.type? name := by
  have hnames : (registry.types.map (·.name)).Nodup := by
    rw [names_types]
    exact registry.table.distinct_toOrdered
  refine Option.ext fun type => ?_
  rw [find?_eq_some_iff EntityType.name hnames]
  constructor
  · rintro ⟨hmem, rfl⟩
    exact registry.type?_of_mem_types hmem
  · intro h
    obtain ⟨entitySet, hset, rfl⟩ := Option.map_eq_some_iff.1 h
    rw [set?_eq] at hset
    obtain ⟨item, hitem, hentry⟩ := List.mem_map.1 (Ordered.mem_of_get? hset)
    obtain ⟨rfl, rfl⟩ := Prod.mk.inj hentry
    exact ⟨List.mem_map_of_mem hitem, rfl⟩

theorem Registry.name_of_type? (registry : Registry) {name : String} {type : EntityType}
    (h : registry.type? name = some type) : type.name = name := by
  rw [← find?_types] at h
  simpa using List.find?_some h

/-- The entry of a name is the first one of that name. -/
theorem Ordered.find?_eq {β : Type} (es : Ordered β) (key : String) :
    (es.find? fun entry => entry.1 = key) = (get? key es).map fun value => (key, value) := by
  induction es with
  | nil => rfl
  | cons entry es ih =>
      by_cases h : entry.1 = key
      · simp [get?, ← h]
      · simp [get?, h, ih]

namespace Xml

/-! ### Elements inside elements -/

/-- The first element of some kind inside an element that has some value of an attribute. -/
def childWith? (kind key value : String) (element : Xml) : Option Xml :=
  element.children.find? fun child => child.name == kind && child.attribute? key == some value

/-- Where each item has an element of some kind that names it, the element of a name is that of the
item. -/
theorem find?_map_element {α : Type} {kind key : String} {element : α → Xml} {nameOf : α → String}
    (hkind : ∀ a, (element a).name = kind)
    (hkey : ∀ a, (element a).attribute? key = some (nameOf a)) (items : List α) (value : String) :
    ((items.map element).find? fun child =>
        child.name == kind && child.attribute? key == some value)
      = (items.find? fun a => nameOf a = value).map element := by
  rw [List.find?_map]
  congr 2
  funext a
  simp [hkind, hkey, Bool.beq_eq_decide_eq]

end Xml

namespace Metadata

/-! ### Looking into a document -/

/-- The element of the schema in the text of a document. -/
def schema? (xml : String) : Option Xml := do
  let services ← (← Xml.read xml).child? "edmx:DataServices"
  services.child? "Schema"

/-- The element of the field at some place of an entity type.  The key stands in front of all
fields. -/
def fieldElement? (xml type : String) (place : Nat) : Option Xml := do
  let element ← (← schema? xml).childWith? "EntityType" "Name" type
  element.children[place + 1]?

/-- The target of a relationship of an entity set, as its binding tells it. -/
def boundTarget? (xml set relationship : String) : Option String := do
  let container ← (← schema? xml).child? "EntityContainer"
  let element ← container.childWith? "EntitySet" "Name" set
  let binding ← element.childWith? "NavigationPropertyBinding" "Path" relationship
  binding.attribute? "Target"

theorem schema?_document (registry : Registry) :
    schema? (document registry).value.xml = some (schema registry).value := by
  rw [schema?, read_xml_document]
  rfl

theorem children_schema (registry : Registry) :
    (schema registry).value.children
      = .node "EntityContainer" [("Name", "EntityContainer")]
          (registry.types.map (setElement registry)) ::
        registry.types.map fun type => (typeElement registry type).value := by
  simp only [schema, Journal.value_bind, Journal.value_pure, Journal.value_traverse]
  rfl

/-! ### The elements of fields -/

/-- The element of a field, if it has one. -/
def element? (registry : Registry) (type : EntityType) (field : Field) : Option Xml :=
  (fieldElements registry type field).value.head?

/-- A field has an element exactly if it is described. -/
theorem isSome_element? (registry : Registry) (type : EntityType) (field : Field) :
    (element? registry type field).isSome = (member? registry type field).isSome := by
  rw [element?, fieldElements, member?]
  cases field.type with
  | scalar kind => rfl
  | navigation =>
      simp only
      cases registry.relationship? type.name (field.relationship?.getD field.name) <;> rfl

theorem value_fieldElements (registry : Registry) (type : EntityType) (field : Field) :
    (fieldElements registry type field).value = (element? registry type field).toList := by
  rw [element?, fieldElements]
  cases field.type with
  | scalar kind => rfl
  | navigation =>
      simp only
      cases registry.relationship? type.name (field.relationship?.getD field.name) <;> rfl

theorem children_typeElement (registry : Registry) (type : EntityType) :
    (typeElement registry type).value.children
      = keyElement type :: type.fields.filterMap (element? registry type) := by
  simp only [typeElement, Journal.value_bind, Journal.value_pure, Journal.value_traverse,
    value_fieldElements]
  rw [List.filterMap_eq_flatMap_toList]
  rfl

theorem childWith?_schema (registry : Registry) (name : String) :
    (schema registry).value.childWith? "EntityType" "Name" name
      = (registry.type? name).map fun type => (typeElement registry type).value := by
  have hkind : ∀ type, (typeElement registry type).value.name = "EntityType" := fun _ => rfl
  have hname : ∀ type : EntityType,
      (typeElement registry type).value.attribute? "Name" = some type.name := fun _ => rfl
  rw [Xml.childWith?, children_schema, List.find?_cons_of_neg (by simp [Xml.name]),
    Xml.find?_map_element hkind hname, Registry.find?_types]

/-- The elements of an entity type are those of its fields, in their order. -/
theorem fieldElement?_document (registry : Registry) (name : String) (place : Nat) :
    fieldElement? (document registry).value.xml name place
      = (registry.type? name).bind fun type =>
          (type.fields.filterMap (element? registry type))[place]? := by
  simp only [fieldElement?, schema?_document, Option.bind_eq_bind, Option.bind_some,
    childWith?_schema, Option.bind_map, Function.comp_def, children_typeElement,
    List.getElem?_cons_succ]

/-! ### The bindings of a set -/

theorem child?_schema (registry : Registry) :
    (schema registry).value.child? "EntityContainer"
      = some (.node "EntityContainer" [("Name", "EntityContainer")]
          (registry.types.map (setElement registry))) := by
  rw [Xml.child?, children_schema, List.find?_cons_of_pos rfl]

theorem name_setElement (registry : Registry) (type : EntityType) :
    (setElement registry type).name = "EntitySet" ∧
      (setElement registry type).attribute? "Name" = some type.name := by
  rw [setElement]
  cases registry.relationshipsOf type.name <;> exact ⟨rfl, rfl⟩

theorem children_setElement (registry : Registry) (type : EntityType) :
    (setElement registry type).children
      = bindingElements (registry.relationshipsOf type.name) := by
  rw [setElement]
  cases registry.relationshipsOf type.name <;> rfl

theorem childWith?_setElement (registry : Registry) (type : EntityType) (relationship : String) :
    (setElement registry type).childWith? "NavigationPropertyBinding" "Path" relationship
      = (registry.relationship? type.name relationship).map fun given =>
          .leaf "NavigationPropertyBinding" [("Path", relationship), ("Target", given.target)] := by
  have hbinding := @Xml.find?_map_element _ "NavigationPropertyBinding" "Path"
    (fun binding : String × Relationship => .leaf "NavigationPropertyBinding"
      [("Path", binding.1), ("Target", binding.2.target)])
    Prod.fst (fun _ => rfl) (fun _ => rfl) (registry.relationshipsOf type.name) relationship
  rw [Ordered.find?_eq, Option.map_map] at hbinding
  rw [Xml.childWith?, children_setElement]
  exact hbinding

/-- The relationships of a set are bound to their targets. -/
theorem boundTarget?_document (registry : Registry) (set relationship : String) :
    boundTarget? (document registry).value.xml set relationship
      = (registry.type? set).bind fun _ =>
          (registry.relationship? set relationship).map (·.target) := by
  have hset : Xml.childWith? "EntitySet" "Name" set (.node "EntityContainer"
      [("Name", "EntityContainer")] (registry.types.map (setElement registry)))
      = (registry.type? set).map (setElement registry) := by
    rw [Xml.childWith?, Xml.children, Xml.find?_map_element
      (fun type => (name_setElement registry type).1)
      (fun type => (name_setElement registry type).2), Registry.find?_types]
  simp only [boundTarget?, schema?_document, Option.bind_eq_bind, Option.bind_some, child?_schema,
    hset]
  cases htype : registry.type? set with
  | none => rfl
  | some type =>
      obtain rfl : type.name = set := registry.name_of_type? htype
      simp only [Option.map_some, Option.bind_some, childWith?_setElement]
      cases registry.relationship? type.name relationship <;> rfl

/-! ### What a navigation property says -/

theorem attribute?_navigationElement (registry : Registry) (type : EntityType) (field : Field)
    (name : String) (relationship : Relationship) :
    let element := navigationElement registry type field name relationship
    element.name = "NavigationProperty" ∧
      element.attribute? "Name" = some field.wireName ∧
      element.attribute? "Type" = some (navigationType registry relationship) ∧
      element.attribute? "Partner" = partner? registry type.name relationship.target := by
  simp only [navigationElement]
  cases partner? registry type.name relationship.target <;> cases type.find? (name ++ "_ID") <;>
    simp [Xml.name, Xml.attribute?, List.lookup_cons]

end Metadata

namespace Definition

variable {definition : Definition}

/-- **The element of a navigation field.** -/
theorem StandsAt.fieldElement?_document {r : RelationshipDefinition} {source : SetDefinition}
    {place : Nat} {field : FieldDefinition} (hplace : definition.StandsAt r source place field)
    (h : definition.IsValid) (hd : definition.entitySets.Distinct)
    (hr : r ∈ definition.relationships) :
    Metadata.fieldElement? (Metadata.document definition.toRegistry.value).value.xml r.source place
      = some (Metadata.navigationElement definition.toRegistry.value
          (definition.typeOf r.source source) field.toField r.name ⟨r.target, r.cardinality⟩) := by
  have hkind : field.toField.type = .navigation := by
    rw [FieldDefinition.toField, if_pos hplace.isNavigation]
  have hnamed : field.toField.relationship? = some r.name :=
    FieldDefinition.relationship?_toField_iff.2 ⟨hplace.isNavigation, hplace.relationship_eq⟩
  have hfound : definition.toRegistry.value.relationship? (definition.typeOf r.source source).name
      r.name = some ⟨r.target, r.cardinality⟩ := relationship?_toRegistry h hr
  have helement : Metadata.element? definition.toRegistry.value
      (definition.typeOf r.source source) field.toField
      = some (Metadata.navigationElement definition.toRegistry.value
          (definition.typeOf r.source source) field.toField r.name ⟨r.target, r.cardinality⟩) := by
    rw [Metadata.element?, Metadata.fieldElements, hkind, hnamed]
    simp only [Option.getD_some, hfound]
    rfl
  have hall : ∀ other ∈ source.fields, (Metadata.element? definition.toRegistry.value
      (definition.typeOf r.source source) other.toField).isSome = true := fun other hother => by
    rw [Metadata.isSome_element?]
    exact isSome_member? h hplace.source_eq hother
  have hfields : (definition.typeOf r.source source).fields = source.fields.map (·.toField) := rfl
  rw [Metadata.fieldElement?_document, type?_toRegistry definition hd, type?, hplace.source_eq,
    Option.map_some, Option.bind_some, hfields, List.filterMap_map]
  refine (getElem?_filterMap_of_isSome hall place).trans ?_
  rw [hplace.field_eq]
  exact helement

end Definition

end OData
