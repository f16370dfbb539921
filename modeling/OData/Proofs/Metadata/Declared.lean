/-
What the metadata document tells of a definition.

The document is written from a registry, which looks relationships up by the names of sets and
fields.  In a valid definition every look-up finds what is declared, so that the document can be
told from the definition alone: its types are the declared sets in their order, the members of a
type are the declared fields in theirs, and a navigation property shows the relationship that its
field stands for.

Main definitions:

* `Metadata.Description.ofText?`, `Metadata.memberAt?` — what the text of a document tells;
* `Definition.typeDescriptionOf` — what the document tells of a declared set;
* `Definition.declaredNavigation` — how a field that stands for a relationship should be shown;
* `Definition.StandsAt` — the place of such a field in its set.

Main results:

* `Definition.partner?_toRegistry` — both ways to find a partner find the same;
* `Definition.types_description` — the types of the document are the declared sets;
* `Definition.memberAt?_document` — the document shows each field in its place;
* `Definition.StandsAt.memberAt?_document` — **a navigation property shows its relationship**.
-/

import OData.Proofs.Dataset.Complete

set_option relaxedAutoImplicit false
set_option autoImplicit false

namespace OData

/-! ### Reading a document -/

namespace Metadata

/-- What the text of a document tells, if it can be read. -/
def Description.ofText? (xml : String) : Option Description :=
  (Xml.read xml).bind Description.ofXml

/-- What the text of a document tells of the field at some place of an entity type. -/
def memberAt? (xml type : String) (place : Nat) : Option Member :=
  (Description.ofText? xml).bind fun description =>
    (description.types.find? fun t => t.name = type).bind fun t => t.members[place]?

theorem ofText?_document (registry : Registry) :
    Description.ofText? (document registry).value.xml = some registry.description := by
  rw [Description.ofText?, read_xml_document, Option.bind_some, ofXml_root]

end Metadata

/-! ### Fields of a declared set -/

/-- The wire name of the first key field of a set. -/
def SetDefinition.keyWireName (set : SetDefinition) : String :=
  ((set.fields.find? (·.isKey)).map (·.toField.wireName)).getD "ID"

theorem SetDefinition.IsValid.exists_key {definition : Definition} {name : String}
    {set : SetDefinition} (h : set.IsValid definition name) :
    ∃ field, set.fields.find? (·.isKey) = some field ∧ field.name = set.keyName ∧
      field.toField.wireName = set.keyWireName ∧ field.isNavigation = false := by
  obtain ⟨field, hfind, -, -, hplain⟩ := h.exists_firstKey
  exact ⟨field, hfind, by rw [keyName, hfind]; rfl, by rw [keyWireName, hfind]; rfl, hplain⟩

/-- The field of some name that a set declares. -/
def SetDefinition.field? (set : SetDefinition) (name : String) : Option FieldDefinition :=
  set.fields.find? fun field => field.name == name

theorem SetDefinition.field?_of_mem {set : SetDefinition} (h : (set.fields.map (·.name)).Nodup)
    {field : FieldDefinition} (hfield : field ∈ set.fields) :
    set.field? field.name = some field :=
  find?_eq_some_of_mem FieldDefinition.name h hfield

theorem FieldDefinition.type_toField_of_not_isNavigation {field : FieldDefinition}
    (h : field.isNavigation = false) :
    field.toField.type = .scalar (.ofDeclared field.typeWord) := by
  rw [toField, h, if_neg Bool.false_ne_true]

namespace Definition

variable (definition : Definition)

theorem find?_typeOf (name : String) (set : SetDefinition) (field : String) :
    (definition.typeOf name set).find? field = (set.field? field).map (·.toField) := by
  rw [EntityType.find?, typeOf, List.find?_map]
  rfl

/-! ### Looking up in the registry -/

theorem type?_toRegistry (hd : definition.entitySets.Distinct) (name : String) :
    definition.toRegistry.value.type? name = definition.type? name := by
  rw [Registry.type?, set?_toRegistry definition hd, Option.map_map]
  rfl

/-- The property that constraints refer to is the key of the target. -/
theorem referencedName_toRegistry (hd : definition.entitySets.Distinct) {name : String}
    {set : SetDefinition} (hset : definition.set? name = some set) :
    Metadata.referencedName definition.toRegistry.value name = set.keyWireName := by
  have hkey : (definition.typeOf name set).keyFields.head?
      = (set.fields.find? (·.isKey)).map (·.toField) := by
    rw [EntityType.keyFields, typeOf, List.head?_filter, List.find?_map]
    rfl
  rw [Metadata.referencedName, type?_toRegistry definition hd, type?, hset, Option.map_some,
    Option.bind_some, hkey, Option.map_map]
  rfl

variable {definition}

/-- The partner that the registry finds by the names of two sets is the declared one. -/
theorem partner?_toRegistry (h : definition.IsValid) (r : RelationshipDefinition) :
    Metadata.partner? definition.toRegistry.value r.source r.target
      = (definition.partner? r).map (·.name) := by
  rw [Metadata.partner?, relationshipsOf_toRegistry h, List.find?_map, Option.map_map, partner?,
    relationshipsFrom, List.find?_filter]
  exact congrArg (Option.map RelationshipDefinition.name)
    (List.find?_congr fun s _ => by simp [Bool.beq_eq_decide_eq])

/-! ### The members of a type -/

/-- A plain field is always shown. -/
theorem member?_of_not_isNavigation (registry : Registry) (type : EntityType)
    {field : FieldDefinition} (h : field.isNavigation = false) :
    Metadata.member? registry type field.toField = some (.property
      (Metadata.propertyDescription field.toField (.ofDeclared field.typeWord))) := by
  rw [Metadata.member?, FieldDefinition.type_toField_of_not_isNavigation h]

theorem isSome_member? (h : definition.IsValid) {name : String} {set : SetDefinition}
    (hset : definition.set? name = some set) {field : FieldDefinition} (hfield : field ∈ set.fields) :
    (Metadata.member? definition.toRegistry.value (definition.typeOf name set)
      field.toField).isSome = true := by
  cases hnavigation : field.isNavigation with
  | false =>
      rw [member?_of_not_isNavigation _ _ hnavigation]
      rfl
  | true =>
      obtain ⟨r, hr, rfl, hname⟩ := exists_relationship_of_isNavigation h
        (Ordered.mem_of_get? hset) hfield hnavigation
      rw [member?_toRegistry h hr set hnavigation hname]
      rfl

/-- If nothing is left out, items keep their places. -/
theorem getElem?_filterMap_of_isSome {α β : Type} {f : α → Option β} {items : List α}
    (h : ∀ a ∈ items, (f a).isSome = true) (place : Nat) :
    (items.filterMap f)[place]? = items[place]?.bind f := by
  induction items generalizing place with
  | nil => rfl
  | cons a items ih =>
      obtain ⟨b, hb⟩ := Option.isSome_iff_exists.1 (h a List.mem_cons_self)
      rw [List.filterMap_cons_some hb]
      cases place with
      | zero => exact hb.symm
      | succ place => exact ih (fun c hc => h c (List.mem_cons_of_mem _ hc)) place

/-- The description of a declared set's type. -/
def typeDescriptionOf (definition : Definition) (name : String) (set : SetDefinition) :
    Metadata.TypeDescription :=
  Metadata.typeDescription definition.toRegistry.value (definition.typeOf name set)

/-- The members of a type are the declared fields. -/
theorem members_typeDescriptionOf (name : String) (set : SetDefinition) :
    (definition.typeDescriptionOf name set).members
      = set.fields.filterMap fun field => Metadata.member? definition.toRegistry.value
          (definition.typeOf name set) field.toField := by
  rw [typeDescriptionOf, Metadata.typeDescription, typeOf, List.filterMap_map]
  rfl

/-- The types of the document are the declared sets. -/
theorem types_description (hd : definition.entitySets.Distinct) :
    definition.toRegistry.value.description.types
      = definition.entitySets.map fun e => definition.typeDescriptionOf e.1 e.2 := by
  change definition.toRegistry.value.types.map _ = _
  rw [types_toRegistry hd, List.map_map]
  rfl

theorem mem_types_description (hd : definition.entitySets.Distinct) {name : String}
    {set : SetDefinition} (hset : definition.set? name = some set) :
    definition.typeDescriptionOf name set ∈ definition.toRegistry.value.description.types := by
  rw [types_description hd]
  exact List.mem_map.2 ⟨(name, set), Ordered.mem_of_get? hset, rfl⟩

theorem find?_types_description (hd : definition.entitySets.Distinct) {name : String}
    {set : SetDefinition} (hset : definition.set? name = some set) :
    (definition.toRegistry.value.description.types.find? fun t => t.name = name)
      = some (definition.typeDescriptionOf name set) := by
  have hnames : (definition.toRegistry.value.description.types.map (·.name)).Nodup := by
    rw [types_description hd, List.map_map]
    exact hd
  exact find?_eq_some_of_mem Metadata.TypeDescription.name hnames (mem_types_description hd hset)

/-- **The document shows each field in its place.** -/
theorem memberAt?_document (h : definition.IsValid) (hd : definition.entitySets.Distinct)
    {name : String} {set : SetDefinition} (hset : definition.set? name = some set) (place : Nat) :
    Metadata.memberAt? (Metadata.document definition.toRegistry.value).value.xml name place
      = set.fields[place]?.bind fun field =>
          Metadata.member? definition.toRegistry.value (definition.typeOf name set)
            field.toField := by
  rw [Metadata.memberAt?, Metadata.ofText?_document, Option.bind_some,
    find?_types_description hd hset, Option.bind_some, members_typeDescriptionOf]
  exact getElem?_filterMap_of_isSome (fun field hfield => isSome_member? h hset hfield) place

/-! ### Navigation properties -/

variable (definition)

/-- How the document should show a field that stands for a relationship: with its partner, and with
a constraint if the set declares a field that is called like the relationship with `_ID` behind
it. -/
def declaredNavigation (r : RelationshipDefinition) (source target : SetDefinition)
    (field : FieldDefinition) : Metadata.NavigationDescription where
  name := field.toField.wireName
  target := r.target
  cardinality := r.cardinality
  partner := (definition.partner? r).map (·.name)
  constraint := (source.field? (r.name ++ "_ID")).map fun key =>
    (key.toField.wireName, target.keyWireName)

/-- A navigation field at some place of the source of a relationship, which stands for it. -/
structure StandsAt (r : RelationshipDefinition) (source : SetDefinition) (place : Nat)
    (field : FieldDefinition) : Prop where
  source_eq : definition.set? r.source = some source
  field_eq : source.fields[place]? = some field
  isNavigation : field.isNavigation = true
  relationship_eq : field.relationship? = some r.name

variable {definition}

theorem navigationDescription_toRegistry (h : definition.IsValid)
    (hd : definition.entitySets.Distinct) (r : RelationshipDefinition) (source : SetDefinition)
    {target : SetDefinition} (htarget : definition.set? r.target = some target)
    (field : FieldDefinition) :
    Metadata.navigationDescription definition.toRegistry.value (definition.typeOf r.source source)
        field.toField r.name ⟨r.target, r.cardinality⟩
      = definition.declaredNavigation r source target field := by
  have hpartner : Metadata.partner? definition.toRegistry.value
      (definition.typeOf r.source source).name r.target = (definition.partner? r).map (·.name) :=
    partner?_toRegistry h r
  rw [Metadata.navigationDescription, declaredNavigation, hpartner, find?_typeOf, Option.map_map,
    referencedName_toRegistry definition hd htarget]
  rfl

/-- **A navigation property shows its relationship**: where it leads, its partner, and the
conventional constraint. -/
theorem StandsAt.memberAt?_document {r : RelationshipDefinition} {source target : SetDefinition}
    {place : Nat} {field : FieldDefinition} (hplace : definition.StandsAt r source place field)
    (h : definition.IsValid) (hd : definition.entitySets.Distinct)
    (hr : r ∈ definition.relationships) (htarget : definition.set? r.target = some target) :
    Metadata.memberAt? (Metadata.document definition.toRegistry.value).value.xml r.source place
      = some (.navigation (definition.declaredNavigation r source target field)) := by
  rw [Definition.memberAt?_document h hd hplace.source_eq, hplace.field_eq, Option.bind_some,
    member?_toRegistry h hr source hplace.isNavigation hplace.relationship_eq,
    navigationDescription_toRegistry h hd r source htarget]

end Definition

end OData
