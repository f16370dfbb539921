/-
The metadata document tells the shape of what is expanded.

Where a relationship leads is known twice.  The links of a set have the target and the cardinality
of each relationship, and what they resolve is expanded; the document has them in the bindings of
the set and in the types of its navigation properties.  Both come from the definition, by way of
several look-ups by name, and both say the same: a client that reads the type of a navigation
property knows whether to expect one record or a list under its name, and from which entity set.

Main definitions:

* `Related.LeadsTo`, `Value.Shows` — related records, and the value that shows them, of the shape of
  a relationship;
* `Definition.StandsFirstAt` — the first navigation field of a relationship.

Main results:

* `Related.LeadsTo.shows_answer` — answering keeps the shape;
* `Definition.leadsTo_capability` — links lead where relationships lead;
* `Definition.exists_standsFirstAt` — a relationship with a navigation field has a first one;
* `Definition.expanded_shape` — **what is expanded has the shape that the document tells**.
-/

import OData.Proofs.Dataset.Order
import OData.Proofs.Field.Records
import OData.Proofs.Metadata.Element

set_option relaxedAutoImplicit false
set_option autoImplicit false

namespace OData

open Query

/-! ### Shapes -/

/-- Related records are one record of the target or several, as a relationship says. -/
inductive Related.LeadsTo (target : String) : Cardinality → Related → Prop
  | one {record : Record} (h : record.type.name = target) : LeadsTo target .oneToOne (.one record)
  | many {records : List Record} (h : ∀ record ∈ records, record.type.name = target) :
      LeadsTo target .oneToMany (.many records)

/-- A value shows one record of the target or a list of them, as a relationship says. -/
inductive Value.Shows (target : String) : Cardinality → Value → Prop
  | nested {record : FieldList} (h : record.entitySet = some target) :
      Shows target .oneToOne (.nested record)
  | nestedList {records : List FieldList} (h : ∀ record ∈ records, record.entitySet = some target) :
      Shows target .oneToMany (.nestedList records)

namespace Value.Shows

variable {target : String} {cardinality : Cardinality} {value : Value}

theorem entitySet_eq (h : value.Shows target cardinality) :
    ∀ record ∈ value.records, record.entitySet = some target := by
  cases h with
  | nested h =>
      intro record hrecord
      rwa [List.mem_singleton.1 hrecord]
  | nestedList h => exact h

theorem isList_iff (h : value.Shows target cardinality) :
    (∃ records, value = .nestedList records) ↔ cardinality = .oneToMany := by
  cases h <;> simp

theorem isOne_iff (h : value.Shows target cardinality) :
    (∃ record, value = .nested record) ↔ cardinality = .oneToOne := by
  cases h <;> simp

end Value.Shows

/-- **Answering keeps the shape**, whatever is asked for in parentheses. -/
theorem Related.LeadsTo.shows_answer {target : String} {cardinality : Cardinality}
    {related : Related} (h : related.LeadsTo target cardinality) (registry : Registry)
    (options : Options) : (related.answer registry options).Shows target cardinality := by
  cases h with
  | one h =>
      refine .nested ?_
      rw [Record.entitySet_answer, h]
  | many h =>
      refine .nestedList fun record hrecord => ?_
      simp only [answerAll, Journal.value_traverse] at hrecord
      obtain ⟨shown, hshown, rfl⟩ := List.mem_map.1 hrecord
      rw [Record.entitySet_answer, h shown (mem_of_mem_window hshown)]

/-! ### The type of a navigation property -/

namespace Metadata

/-- The type of a list is longer than that of one of its items. -/
theorem collection_ne (type : String) : "Collection(" ++ type ++ ")" ≠ type := by
  intro h
  have hlength := congrArg String.length h
  simp only [String.length_append] at hlength
  have : "Collection(".length = 11 := rfl
  omega

theorem navigationType_eq_many_iff (registry : Registry) (target : String)
    (cardinality : Cardinality) :
    navigationType registry ⟨target, cardinality⟩
        = "Collection(" ++ (registry.schemaName ++ "." ++ target) ++ ")" ↔
      cardinality = .oneToMany := by
  cases cardinality with
  | oneToOne => simpa [navigationType] using (collection_ne _).symm
  | oneToMany => simp [navigationType]

theorem navigationType_eq_one_iff (registry : Registry) (target : String)
    (cardinality : Cardinality) :
    navigationType registry ⟨target, cardinality⟩ = registry.schemaName ++ "." ++ target ↔
      cardinality = .oneToOne := by
  cases cardinality with
  | oneToOne => simp [navigationType]
  | oneToMany => simpa [navigationType] using collection_ne _

end Metadata

namespace Definition

variable {definition : Definition} {r : RelationshipDefinition} {source : SetDefinition}

/-! ### Where links lead -/

/-- The seed records of a set have the type of that name. -/
theorem name_type_of_mem_records {name : String} {record : SeedRecord}
    (h : record ∈ (Dataset.ofDefinition definition).records name) : record.type.name = name := by
  rw [Dataset.records, get?_ofDefinition] at h
  cases hset : definition.set? name with
  | none =>
      rw [hset] at h
      cases h
  | some set =>
      rw [hset] at h
      obtain ⟨members, -, rfl⟩ := List.mem_map.1 h
      rfl

theorem name_type_of_find? {name id : String} {record : SeedRecord}
    (h : (Dataset.ofDefinition definition).find? name id = some record) :
    record.type.name = name := by
  obtain ⟨seeds, hseeds, hfind⟩ := Option.bind_eq_some_iff.1 h
  have hmem : record ∈ (Dataset.ofDefinition definition).records name := by
    rw [Dataset.records, hseeds]
    exact List.mem_of_find?_eq_some hfind
  exact name_type_of_mem_records hmem

/-- A link leads to records of its target, to one or to several. -/
theorem leadsTo_resolve {link : Link} {fields : FieldList} {related : Related}
    (h : link.resolve (Dataset.ofDefinition definition) fields = some related) :
    related.LeadsTo link.target link.cardinality := by
  obtain ⟨key, -, hrelated⟩ := Option.bind_eq_some_iff.1 h
  cases hcard : link.cardinality with
  | oneToOne =>
      simp only [hcard] at hrelated
      obtain ⟨found, hfound, rfl⟩ := Option.map_eq_some_iff.1 hrelated
      exact .one (name_type_of_find? hfound)
  | oneToMany =>
      simp only [hcard] at hrelated
      obtain rfl := Option.some.inj hrelated
      refine .many fun record hrecord => ?_
      obtain ⟨seed, hseed, rfl⟩ := List.mem_map.1 hrecord
      exact name_type_of_mem_records (List.mem_filter.1 hseed).1

/-- **Links lead where relationships lead**: whatever field list the capability of a set is handed,
what it resolves has the shape of the relationship. -/
theorem leadsTo_capability (h : definition.IsValid) (hd : definition.entitySets.Distinct)
    (hr : r ∈ definition.relationships) (hsource : definition.set? r.source = some source)
    {fields : FieldList} {text : String} {related : Related}
    (hrelated : definition.toRegistry.value.capability r.source fields r.name text
      = some related) : related.LeadsTo r.target r.cardinality := by
  rw [capability_toRegistry definition hd hsource] at hrelated
  split at hrelated
  · obtain ⟨link, hlink, hresolved⟩ := Option.bind_eq_some_iff.1 hrelated
    obtain ⟨declared, hdeclared, htarget, hcardinality, -⟩ := exists_link h hr hsource
    obtain rfl := Option.some.inj (hlink.symm.trans hdeclared)
    rw [← htarget, ← hcardinality]
    exact leadsTo_resolve hresolved
  · cases hrelated

/-! ### The first navigation field -/

/-- The first navigation field that stands for a relationship. -/
structure StandsFirstAt (definition : Definition) (r : RelationshipDefinition)
    (source : SetDefinition) (place : Nat) (field : FieldDefinition) : Prop
    extends definition.StandsAt r source place field where
  first : ∀ earlier ∈ source.fields.take place, earlier.toField.relationship? ≠ some r.name

/-- A relationship that has a navigation field has a first one. -/
theorem exists_standsFirstAt (hsource : definition.set? r.source = some source)
    (hbound : ∃ field ∈ source.fields, field.toField.relationship? = some r.name) :
    ∃ place field, definition.StandsFirstAt r source place field := by
  have hsome : (source.fields.find? fun field =>
      field.toField.relationship? = some r.name).isSome = true := by
    simpa [List.find?_isSome] using hbound
  obtain ⟨field, hfind⟩ := Option.isSome_iff_exists.1 hsome
  obtain ⟨hnamed, place, hlt, hplace, hfirst⟩ := List.find?_eq_some_iff_getElem.1 hfind
  obtain ⟨hnavigation, hname⟩ := FieldDefinition.relationship?_toField_iff.1 (by simpa using hnamed)
  refine ⟨place, field, ⟨hsource, List.getElem?_eq_some_iff.2 ⟨hlt, hplace⟩, hnavigation, hname⟩,
    fun earlier hearlier => ?_⟩
  obtain ⟨i, hi, rfl⟩ := List.mem_take_iff_getElem.1 hearlier
  simpa using hfirst i (by omega)

/-- A relationship is expanded under the wire name of its first navigation field. -/
theorem StandsFirstAt.expansionName_eq {place : Nat} {field : FieldDefinition}
    (h : definition.StandsFirstAt r source place field) :
    source.expansionName r.name = field.toField.wireName := by
  have hnamed : field.toField.relationship? = some r.name :=
    FieldDefinition.relationship?_toField_iff.2 ⟨h.isNavigation, h.relationship_eq⟩
  have hfind : (source.fields.find? fun field => field.toField.relationship? = some r.name)
      = some field :=
    find?_eq_some_of_first h.field_eq (by simpa using hnamed)
      fun earlier hearlier => by simpa using h.first earlier hearlier
  rw [SetDefinition.expansionName, hfind]
  rfl

/-- **What is expanded has the shape that the document tells.**  The binding of a relationship names
its target.  If a term that names the relationship is resolved for a record of its source, then, for
any content of its parentheses, the result stands under the name of the navigation property for its
first navigation field.  It is a list exactly if the type of that property is a collection of the
target's type, and one record exactly if it is the target's type; and the records in it come from
the target. -/
theorem expanded_shape (h : definition.problems = []) (hd : definition.entitySets.Distinct)
    (hr : r ∈ definition.relationships) (hsource : definition.set? r.source = some source)
    (hbound : ∃ field ∈ source.fields, field.toField.relationship? = some r.name) :
    let registry := definition.toRegistry.value
    let xml := (Metadata.document registry).value.xml
    let target := definition.schemaName ++ "." ++ r.target
    Metadata.boundTarget? xml r.source r.name = some r.target ∧
    ∃ place field element, definition.StandsFirstAt r source place field ∧
      Metadata.fieldElement? xml r.source place = some element ∧
      element.name = "NavigationProperty" ∧
      element.attribute? "Name" = some field.toField.wireName ∧
      ∀ members content related,
        registry.capability r.source
            ((definition.record r.source source members).introspect [r.name]) r.name
            (ExpandItem.nestedOption ⟨r.name, content⟩) = some related →
        ∃ value,
          ((definition.record r.source source members).expanded registry
              [⟨r.name, content⟩]).value.get? field.toField.wireName = some value ∧
          value.isExpanded = true ∧
          ((∃ records, value = .nestedList records) ↔
            element.attribute? "Type" = some ("Collection(" ++ target ++ ")")) ∧
          ((∃ record, value = .nested record) ↔ element.attribute? "Type" = some target) ∧
          ∀ record ∈ value.records, record.entitySet = some r.target := by
  have hvalid := definition.problems_eq_nil_iff.1 h
  intro registry xml target
  obtain ⟨place, field, hplace⟩ := exists_standsFirstAt hsource hbound
  obtain ⟨hkind, hname, htype, -⟩ := Metadata.attribute?_navigationElement registry
    (definition.typeOf r.source source) field.toField r.name ⟨r.target, r.cardinality⟩
  have hone := Metadata.navigationType_eq_one_iff registry r.target r.cardinality
  have hmany := Metadata.navigationType_eq_many_iff registry r.target r.cardinality
  rw [schemaName_toRegistry] at hone hmany
  refine ⟨?_, place, field, _, hplace, hplace.fieldElement?_document hvalid hd hr, hkind, hname,
    fun members content related hrelated => ?_⟩
  · rw [Metadata.boundTarget?_document, type?_toRegistry definition hd, type?, hsource,
      Option.map_some, Option.bind_some, relationship?_toRegistry hvalid hr]
    rfl
  · have hshows := (leadsTo_capability hvalid hd hr hsource hrelated).shows_answer registry
      (ExpandItem.nested ⟨r.name, content⟩)
    refine ⟨_, ?_, Related.isExpanded_answer .., ?_, ?_, hshows.entitySet_eq⟩
    · have hget := @Record.get?_expanded_singleton registry
        (definition.record r.source source members) ⟨r.name, content⟩ related hrelated
      rwa [expansionKey_record hd hsource, hplace.expansionName_eq] at hget
    · rw [hshows.isList_iff, htype, Option.some_inj]
      exact hmany.symm
    · rw [hshows.isOne_iff, htype, Option.some_inj]
      exact hone.symm

theorem expanded_shape_shop :
    let registry := shop.toRegistry.value
    let customer := shop.record "Customers" shopCustomers shopCustomer
    (shop.problems = [] ∧ shop.entitySets.Distinct ∧ customerOrders ∈ shop.relationships ∧
      shop.set? "Customers" = some shopCustomers ∧
      (∃ field ∈ shopCustomers.fields, field.toField.relationship? = some "Orders") ∧
      (registry.capability "Customers" (customer.introspect ["Orders"]) "Orders" "$top=1").isSome
        = true) ∧
    ∃ place field element value, shop.StandsFirstAt customerOrders shopCustomers place field ∧
      Metadata.fieldElement? (Metadata.document registry).value.xml "Customers" place
        = some element ∧
      element.attribute? "Type" = some "Collection(CatalogService.Orders)" ∧
      (customer.expanded registry [⟨"Orders", "$top=1"⟩]).value.get? field.toField.wireName
        = some value ∧
      (∃ records, value = .nestedList records) ∧
      ∀ record ∈ value.records, record.entitySet = some "Orders" := by
  intro registry customer
  have hmem : customerOrders ∈ shop.relationships := by decide
  have hbound : ∃ field ∈ shopCustomers.fields, field.toField.relationship? = some "Orders" := by
    decide
  have hresolved : (registry.capability "Customers" (customer.introspect ["Orders"]) "Orders"
      "$top=1").isSome = true := rfl
  obtain ⟨related, hrelated⟩ := Option.isSome_iff_exists.1 hresolved
  obtain ⟨-, place, field, element, hplace, helement, -, -, hshown⟩ :=
    @expanded_shape shop customerOrders shopCustomers problems_shop keyed_shop.sets hmem rfl hbound
  obtain ⟨value, hvalue, -, hlist, -, hrecords⟩ := hshown shopCustomer "$top=1" related hrelated
  have htype : element.attribute? "Type" = some "Collection(CatalogService.Orders)" := by
    rw [hplace.fieldElement?_document (shop.problems_eq_nil_iff.1 problems_shop) keyed_shop.sets
      hmem] at helement
    obtain rfl := Option.some.inj helement
    rfl
  exact ⟨⟨problems_shop, keyed_shop.sets, hmem, rfl, hbound, hresolved⟩, place, field, element,
    value, hplace, helement, htype, hvalue, hlist.2 htype, hrecords⟩

end Definition

end OData
