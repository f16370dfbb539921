/-
Nothing that a valid definition declares is dropped.

On the way from a definition to a registry and its document every stage passes over what it cannot
make sense of: a relationship without a foreign key has no link, a field that is not found stands
for itself, a navigation field without a relationship is left out of the document.  In a definition
without faults none of this happens.  What is registered is what is declared, name by name and in
its order, whatever the sets are called and however relationships lead around.

Main definitions:

* `Definition.IsComplete` — everything that a definition declares is in a registry.

Main results:

* `Definition.sets_toRegistry`, `Definition.relationshipsOf_toRegistry` — what is registered;
* `Definition.exists_complete_build` — **a definition without faults is built completely**.
-/

import OData.Proofs.Dataset.Join
import OData.Proofs.Metadata.Description

set_option relaxedAutoImplicit false
set_option autoImplicit false

namespace OData

namespace Definition

variable (definition : Definition)

/-- A link leads where its relationship leads, and goes by declared fields: the foreign key is a
plain field of the set that has it, and the other side is a key field. -/
def LinksBy (r : RelationshipDefinition) (source : SetDefinition) (link : Link) : Prop :=
  link.target = r.target ∧ link.cardinality = r.cardinality ∧
    ∃ owner field, definition.set? r.keyOwner = some owner ∧ field ∈ owner.fields ∧
      field.isNavigation = false ∧ definition.foreignKey? r = some field.name ∧
      match r.cardinality with
      | .oneToOne => link.localName = field.toField.wireName
      | .oneToMany => link.remoteName = field.name ∧
          ∃ key ∈ source.fields, key.isKey = true ∧ link.localName = key.toField.wireName

/-- The relationships that a definition registers for a set are those that it declares from it. -/
theorem filterMap_givenRelationship?_registrations (set : String) :
    (definition.registrations.map (·.value)).filterMap (Registration.givenRelationship? set)
      = (definition.relationshipsFrom set).map fun r => (r.name, ⟨r.target, r.cardinality⟩) := by
  have hsets : definition.entitySets.filterMap (fun entry =>
      (definition.setRegistration (Dataset.ofDefinition definition) entry).value.givenRelationship?
        set) = [] :=
    List.filterMap_eq_nil_iff.2 fun _ _ => rfl
  rw [registrations, List.map_append, List.map_map, List.map_map, List.filterMap_append,
    List.filterMap_map, List.filterMap_map]
  refine (congrArg (· ++ _) hsets).trans ?_
  rw [List.nil_append, relationshipsFrom, ← List.filterMap_eq_filter, List.map_filterMap]
  refine List.filterMap_congr fun r _ => ?_
  simp [Registration.givenRelationship?, relationshipRegistration, Option.guard]

variable {definition}

theorem distinct_relationshipsFrom (h : definition.IsValid) (set : String) :
    Ordered.Distinct ((definition.relationshipsFrom set).map fun r =>
      (r.name, (⟨r.target, r.cardinality⟩ : Relationship))) := by
  rw [Ordered.Distinct, Ordered.keys, List.map_map]
  exact h.nodup_relationshipsFrom set

/-- **The registry holds the relationships of each set in their order**, with target and
cardinality. -/
theorem relationshipsOf_toRegistry (h : definition.IsValid) (set : String) :
    definition.toRegistry.value.relationshipsOf set
      = (definition.relationshipsFrom set).map fun r => (r.name, ⟨r.target, r.cardinality⟩) := by
  rw [value_toRegistry, Registry.relationshipsOf_ofRegistrations,
    filterMap_givenRelationship?_registrations,
    Ordered.ofList_eq_self (distinct_relationshipsFrom h set)]

/-! ### Everything that is declared -/

/-- Everything that a definition declares is in a registry. -/
structure IsComplete (definition : Definition) (registry : Registry) : Prop where
  /-- The sets are registered in their order, with their types and what they can do. -/
  sets : registry.sets = definition.entitySets.map fun e => (e.1, ⟨definition.typeOf e.1 e.2,
    definition.handlerOf (Dataset.ofDefinition definition) e.1 e.2⟩)
  /-- The relationships of each set are registered in their order, with target and cardinality. -/
  relationships : ∀ set, registry.relationshipsOf set
    = (definition.relationshipsFrom set).map fun r => (r.name, ⟨r.target, r.cardinality⟩)
  /-- Relationships lead from registered sets to registered sets. -/
  ends : ∀ r ∈ definition.relationships,
    registry.contains r.source = true ∧ registry.contains r.target = true
  /-- Each set has one link for each of its relationships, in their order. -/
  links : ∀ e ∈ definition.entitySets, (linksOf definition (definition.typeOf e.1 e.2)).keys
    = (definition.relationshipsFrom e.1).map (·.name)
  /-- Links go by declared fields. -/
  link : ∀ r ∈ definition.relationships, ∀ set, definition.set? r.source = some set →
    ∃ link, Ordered.get? r.name (linksOf definition (definition.typeOf r.source set)) = some link ∧
      definition.LinksBy r set link
  /-- Fields that are written only with a relationship name a registered one of their set. -/
  expandOnly : ∀ type ∈ registry.types, ∀ field ∈ type.fields, ∀ name ∈ field.expandOnly,
    (registry.relationship? type.name name).isSome = true
  /-- Navigation fields are navigation properties of the document. -/
  navigation : ∃ description,
    (Xml.read (Metadata.document registry).value.xml).bind Metadata.Description.ofXml
      = some description ∧
    ∀ e ∈ definition.entitySets, ∀ field ∈ e.2.fields, field.isNavigation = true →
      ∃ type ∈ description.types, type.name = e.1 ∧ ∃ r ∈ definition.relationshipsFrom e.1,
        field.relationship? = some r.name ∧ ∃ navigation, .navigation navigation ∈ type.members ∧
          navigation.name = field.toField.wireName ∧ navigation.target = r.target ∧
          navigation.cardinality = r.cardinality

theorem types_toRegistry (hd : definition.entitySets.Distinct) :
    definition.toRegistry.value.types = definition.entitySets.map fun e =>
      definition.typeOf e.1 e.2 := by
  rw [Registry.types_eq, sets_toRegistry definition hd, List.map_map]
  rfl

theorem contains_toRegistry (hd : definition.entitySets.Distinct) {name : String}
    {set : SetDefinition} (hset : definition.set? name = some set) :
    definition.toRegistry.value.contains name = true := by
  have hfound := set?_toRegistry definition hd name
  rw [hset, Option.map_some, Registry.set?_eq] at hfound
  rw [Registry.contains_eq, Ordered.contains, hfound]
  rfl

theorem relationship?_toRegistry (h : definition.IsValid) {r : RelationshipDefinition}
    (hr : r ∈ definition.relationships) :
    definition.toRegistry.value.relationship? r.source r.name
      = some ⟨r.target, r.cardinality⟩ := by
  have hmem : r ∈ definition.relationshipsFrom r.source := List.mem_filter.2 ⟨hr, by simp⟩
  rw [Registry.relationship?, relationshipsOf_toRegistry h]
  exact Ordered.get?_of_mem (distinct_relationshipsFrom h r.source) (List.mem_map_of_mem hmem)

/-- A field is bound to a relationship of its own set only. -/
theorem exists_relationship (h : definition.IsValid) {e : String × SetDefinition}
    (he : e ∈ definition.entitySets) {field : FieldDefinition} (hfield : field ∈ e.2.fields)
    {name : String} (hname : field.relationship? = some name) :
    ∃ r ∈ definition.relationships, r.source = e.1 ∧ r.name = name := by
  have hbound := (h.sets e he).bound field hfield name hname
  simpa [hasRelationship] using hbound

/-- Every relationship has a foreign key, so that it has a link. -/
theorem keys_linksOf (h : definition.IsValid) (type : EntityType) :
    (linksOf definition type).keys = (definition.relationshipsFrom type.name).map (·.name) := by
  have hlinks : ∀ rs : List RelationshipDefinition, (∀ r ∈ rs, r.IsValid definition) →
      Ordered.keys (rs.filterMap fun r =>
        (Link.ofRelationship? definition type r).map fun link => (r.name, link))
      = rs.map (·.name) := by
    intro rs hrs
    induction rs with
    | nil => rfl
    | cons r rs ih =>
        obtain ⟨key, -, hkey, -⟩ := (hrs r List.mem_cons_self).foreignKey
        have hrest := ih fun r hr => hrs r (List.mem_cons_of_mem _ hr)
        rw [List.filterMap_cons_some (by rw [Link.ofRelationship?, hkey]; rfl), Ordered.keys_cons,
          hrest, List.map_cons]
  have hkeys := hlinks (definition.relationshipsFrom type.name) fun r hr =>
    h.relationships r (List.mem_filter.1 hr).1
  have hd : Ordered.Distinct (linkList definition type) := by
    rw [Ordered.Distinct, linkList, hkeys]
    exact h.nodup_relationshipsFrom type.name
  rw [linksOf, Ordered.ofList_eq_self hd]
  exact hkeys

/-- The link of a relationship goes by declared fields. -/
theorem exists_link (h : definition.IsValid) {r : RelationshipDefinition}
    (hr : r ∈ definition.relationships) {source : SetDefinition}
    (hsource : definition.set? r.source = some source) :
    ∃ link, Ordered.get? r.name (linksOf definition (definition.typeOf r.source source))
        = some link ∧ definition.LinksBy r source link := by
  obtain ⟨key, owner, hkey, howner, hplain⟩ := (h.relationships r hr).foreignKey
  obtain ⟨field, hfield, rfl, hfieldPlain⟩ := owner.exists_plainField hplain
  rw [h.get?_linksOf hr rfl, Link.ofRelationship?, hkey, Option.map_some]
  refine ⟨_, rfl, ?_⟩
  cases hcard : r.cardinality with
  | oneToOne =>
      have hsame : some source = some owner := by
        rw [← hsource, ← howner, RelationshipDefinition.keyOwner, hcard]
      obtain rfl := Option.some.inj hsame
      refine ⟨rfl, hcard.symm, source, field, howner, hfield, hfieldPlain, hkey, ?_⟩
      simp only [hcard]
      exact wireNameOf_typeOf definition (h.set hsource).names hfield
  | oneToMany =>
      obtain ⟨keyField, hkeyField, hname, hisKey, -⟩ := (h.set hsource).exists_keyField
      refine ⟨rfl, hcard.symm, owner, field, howner, hfield, hfieldPlain, hkey, ?_⟩
      simp only [hcard]
      refine ⟨trivial, keyField, hkeyField, hisKey, ?_⟩
      rw [keyName_typeOf, ← hname]
      exact wireNameOf_typeOf definition (h.set hsource).names hkeyField

/-- A navigation field stands for a relationship of its set. -/
theorem exists_relationship_of_isNavigation (h : definition.IsValid) {e : String × SetDefinition}
    (he : e ∈ definition.entitySets) {field : FieldDefinition} (hfield : field ∈ e.2.fields)
    (hnavigation : field.isNavigation = true) :
    ∃ r ∈ definition.relationships, r.source = e.1 ∧ field.relationship? = some r.name := by
  obtain ⟨name, hname⟩ := FieldDefinition.exists_relationship?_of_isNavigation hnavigation
  obtain ⟨r, hr, hsource, rfl⟩ := exists_relationship h he hfield hname
  exact ⟨r, hr, hsource, hname⟩

/-- The relationship of a navigation field is registered, so that the document shows the field. -/
theorem member?_toRegistry (h : definition.IsValid) {r : RelationshipDefinition}
    (hr : r ∈ definition.relationships) (set : SetDefinition) {field : FieldDefinition}
    (hnavigation : field.isNavigation = true) (hname : field.relationship? = some r.name) :
    Metadata.member? definition.toRegistry.value (definition.typeOf r.source set) field.toField
      = some (.navigation (Metadata.navigationDescription definition.toRegistry.value
          (definition.typeOf r.source set) field.toField r.name ⟨r.target, r.cardinality⟩)) := by
  have hkind : field.toField.type = .navigation := by
    rw [FieldDefinition.toField, if_pos hnavigation]
  have hnamed : field.toField.relationship? = some r.name :=
    FieldDefinition.relationship?_toField_iff.2 ⟨hnavigation, hname⟩
  rw [Metadata.member?, hkind, hnamed]
  simp only [Option.getD_some]
  rw [typeOf, relationship?_toRegistry h hr, Option.map_some]

/-- A navigation field is one of the members of its type. -/
theorem exists_navigation (h : definition.IsValid) (hd : definition.entitySets.Distinct)
    {e : String × SetDefinition} (he : e ∈ definition.entitySets) {field : FieldDefinition}
    (hfield : field ∈ e.2.fields) (hnavigation : field.isNavigation = true) :
    ∃ type ∈ definition.toRegistry.value.description.types, type.name = e.1 ∧
      ∃ r ∈ definition.relationshipsFrom e.1, field.relationship? = some r.name ∧
        ∃ navigation, .navigation navigation ∈ type.members ∧
          navigation.name = field.toField.wireName ∧ navigation.target = r.target ∧
          navigation.cardinality = r.cardinality := by
  obtain ⟨name, set⟩ := e
  obtain ⟨r, hr, rfl, hname⟩ := exists_relationship_of_isNavigation h he hfield hnavigation
  have htype : definition.typeOf r.source set ∈ definition.toRegistry.value.types := by
    rw [types_toRegistry hd]
    exact List.mem_map.2 ⟨(r.source, set), he, rfl⟩
  have hfrom : r ∈ definition.relationshipsFrom r.source := List.mem_filter.2 ⟨hr, by simp⟩
  have hmember := member?_toRegistry h hr set hnavigation hname
  exact ⟨_, List.mem_map_of_mem htype, rfl, r, hfrom, hname, _,
    List.mem_filterMap.2 ⟨field.toField, List.mem_map_of_mem hfield, hmember⟩, rfl, rfl, rfl⟩

/-- **A definition without faults is built completely.**  Its sets have different names, as they do
in every definition that a text writes. -/
theorem exists_complete_build (h : definition.problems = []) (hd : definition.entitySets.Distinct) :
    ∃ built, definition.build = .ok built ∧ definition.IsComplete built.value := by
  have hvalid := definition.problems_eq_nil_iff.1 h
  refine ⟨definition.toRegistry, by rw [build, h], sets_toRegistry definition hd,
    relationshipsOf_toRegistry hvalid, fun r hr => ?_, fun e _ => keys_linksOf hvalid _,
    fun r hr set hset => exists_link hvalid hr hset,
    fun type htype field hfield name hname => ?_, ?_⟩
  · obtain ⟨source, hsource⟩ := (hvalid.relationships r hr).source
    obtain ⟨target, htarget⟩ := (hvalid.relationships r hr).target
    exact ⟨contains_toRegistry hd hsource, contains_toRegistry hd htarget⟩
  · rw [types_toRegistry hd] at htype
    obtain ⟨e, he, rfl⟩ := List.mem_map.1 htype
    obtain ⟨declared, hdeclared, rfl⟩ := List.mem_map.1 hfield
    obtain ⟨r, hr, hsource, rfl⟩ := exists_relationship hvalid he hdeclared hname
    have hfound := relationship?_toRegistry hvalid hr
    rw [hsource] at hfound
    exact Option.isSome_of_mem hfound
  · refine ⟨definition.toRegistry.value.description, ?_, fun e he field hfield hnavigation =>
      exists_navigation hvalid hd he hfield hnavigation⟩
    rw [Metadata.read_xml_document, Option.bind_some, Metadata.ofXml_root]

/-! ### A staff -/

/-- Employees, each with a manager among them. -/
def staffEmployees : SetDefinition where
  fields :=
    [{ name := "ID", typeWord := "int", isKey := true },
      { name := "Boss", displayName := some "ReportsTo" },
      { name := "Manager", typeWord := "navigation" },
      { name := "Team", typeWord := "Navigation", expandOnly := some "Reports" }]

/-- A set with relationships to itself in both directions, which share a foreign key. -/
def staff : Definition where
  version := "1.0"
  entitySets := [("Employees", staffEmployees)]
  relationships :=
    [⟨"Employees", "Manager", "Employees", .oneToOne, some "Boss"⟩,
      ⟨"Employees", "Reports", "Employees", .oneToMany, some "Boss"⟩]

theorem exists_complete_build_staff :
    staff.problems = [] ∧ staff.entitySets.Distinct ∧
      ∃ built, staff.build = .ok built ∧ staff.IsComplete built.value ∧
        built.value.relationshipsOf "Employees"
          = [("Manager", ⟨"Employees", .oneToOne⟩), ("Reports", ⟨"Employees", .oneToMany⟩)] ∧
        (∃ link, Ordered.get? "Manager" (linksOf staff (staff.typeOf "Employees" staffEmployees))
            = some link ∧ link.localName = "ReportsTo") ∧
        ∃ description type navigation,
          (Xml.read (Metadata.document built.value).value.xml).bind Metadata.Description.ofXml
            = some description ∧
          type ∈ description.types ∧ type.name = "Employees" ∧
          .navigation navigation ∈ type.members ∧ navigation.name = "Team" ∧
          navigation.target = "Employees" ∧ navigation.cardinality = .oneToMany := by
  have hproblems : staff.problems = [] := rfl
  have hdistinct : staff.entitySets.Distinct := by decide
  obtain ⟨built, hbuilt, hcomplete⟩ := exists_complete_build hproblems hdistinct
  have hset : ("Employees", staffEmployees) ∈ staff.entitySets := by simp [staff]
  refine ⟨hproblems, hdistinct, built, hbuilt, hcomplete, hcomplete.relationships "Employees", ?_, ?_⟩
  · -- the foreign key is shown under another name, and a link goes by that
    obtain ⟨link, hlink, -, -, owner, field, howner, hfield, -, hkey, hlocal⟩ := hcomplete.link
      ⟨"Employees", "Manager", "Employees", .oneToOne, some "Boss"⟩ (by decide) staffEmployees rfl
    obtain rfl : staffEmployees = owner := Option.some.inj howner
    have hboss : ∀ field ∈ staffEmployees.fields, field.name = "Boss" →
        field.toField.wireName = "ReportsTo" := by decide
    exact ⟨link, hlink, hlocal.trans (hboss field hfield (Option.some.inj hkey).symm)⟩
  · obtain ⟨description, hread, hshown⟩ := hcomplete.navigation
    obtain ⟨type, htype, hname, r, hr, hrelationship, navigation, hmember, hwire, htarget, hcard⟩ :=
      hshown _ hset { name := "Team", typeWord := "Navigation", expandOnly := some "Reports" }
        (by decide) rfl
    have hreports : ∀ r ∈ staff.relationships, r.name = "Reports" →
        r.target = "Employees" ∧ r.cardinality = .oneToMany := by decide
    obtain ⟨hto, hmany⟩ :=
      hreports r (List.mem_filter.1 hr).1 (Option.some.inj hrelationship).symm
    exact ⟨description, type, navigation, hread, htype, hname, hmember, hwire, htarget.trans hto,
      hcard.trans hmany⟩

end Definition

end OData
