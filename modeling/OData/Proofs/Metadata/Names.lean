/-
Names that one part of a metadata document uses for another.

Bindings name a target, navigation properties a type, keys and constraints name properties; in a
valid definition all of these are found in the document.  Paths and partners are names of
relationships.  A relationship is shown by a navigation field, which may go by another name, and it
need not be shown at all; its name is found in the document as soon as a navigation field of its
source goes by it.

Main definitions:

* `Metadata.TypeDescription.propertyNames`, `Metadata.TypeDescription.navigationNames` — the names
  that a type offers;
* `Definition.ShownByName` — relationships by whose name a navigation field goes;
* `Definition.NamesRelationship` — names of relationships in a document;
* `Definition.NamesResolve` — what the names in a document stand for.

Main results:

* `Definition.exists_of_navigation_mem` — navigation properties are declared ones;
* `Definition.exists_namesResolve` — **the names in a document resolve**.
-/

import OData.Proofs.Metadata.Partner

set_option relaxedAutoImplicit false
set_option autoImplicit false

namespace OData

/-! ### The names of a type -/

namespace Metadata.TypeDescription

/-- The names of the properties of a type. -/
def propertyNames (type : TypeDescription) : List String :=
  type.members.filterMap fun member =>
    match member with
    | .property property => some property.name
    | .navigation _ => none

/-- The names of the navigation properties of a type. -/
def navigationNames (type : TypeDescription) : List String :=
  type.members.filterMap fun member =>
    match member with
    | .property _ => none
    | .navigation navigation => some navigation.name

theorem mem_propertyNames {type : TypeDescription} {property : PropertyDescription}
    (h : .property property ∈ type.members) : property.name ∈ type.propertyNames :=
  List.mem_filterMap.2 ⟨_, h, rfl⟩

theorem mem_navigationNames {type : TypeDescription} {navigation : NavigationDescription}
    (h : .navigation navigation ∈ type.members) : navigation.name ∈ type.navigationNames :=
  List.mem_filterMap.2 ⟨_, h, rfl⟩

end Metadata.TypeDescription

namespace Definition

open Metadata

/-- A navigation field of the source of a relationship goes by its name. -/
def ShownByName (definition : Definition) (r : RelationshipDefinition) : Prop :=
  ∃ source field, definition.set? r.source = some source ∧ field ∈ source.fields ∧
    field.isNavigation = true ∧ field.toField.wireName = r.name

/-- A name belongs to a relationship from the set of a type to another set, and to a navigation
property of the type if the relationship is shown by name. -/
def NamesRelationship (definition : Definition) (type : TypeDescription) (name target : String) :
    Prop :=
  ∃ r ∈ definition.relationships, r.source = type.name ∧ r.target = target ∧ r.name = name ∧
    (definition.ShownByName r → name ∈ type.navigationNames)

/-- What the names in a navigation property of one type stand for, if it leads to another. -/
structure NavigationResolves (definition : Definition) (type target : TypeDescription)
    (navigation : NavigationDescription) : Prop where
  target_eq : navigation.target = target.name
  /-- A partner leads back. -/
  partner : ∀ partner ∈ navigation.partner, definition.NamesRelationship target partner type.name
  /-- The property of a constraint is a declared field called like a relationship to the target, and
  a property of the type unless that is a navigation field: see `constraint_property_not_found`. -/
  property : ∀ constraint ∈ navigation.constraint, ∃ r ∈ definition.relationships,
    r.source = type.name ∧ r.target = target.name ∧ ∃ source field,
      definition.set? type.name = some source ∧ field ∈ source.fields ∧
        field.name = r.name ++ "_ID" ∧ field.toField.wireName = constraint.1 ∧
        (field.isNavigation = false → constraint.1 ∈ type.propertyNames)
  referencedProperty : ∀ constraint ∈ navigation.constraint, constraint.2 ∈ target.propertyNames

/-- What the names in a document stand for. -/
structure NamesResolve (definition : Definition) (description : Description) : Prop where
  /-- Each set has a type of its name. -/
  sets : description.sets.map (·.name) = description.types.map (·.name)
  /-- Bindings are named after relationships and lead to sets of the document. -/
  binding : ∀ set ∈ description.sets, ∀ binding ∈ set.bindings,
    binding.2 ∈ description.sets.map (·.name) ∧
      ∃ type ∈ description.types, type.name = set.name ∧
        definition.NamesRelationship type binding.1 binding.2
  key : ∀ type ∈ description.types, ∀ name ∈ type.key, name ∈ type.propertyNames
  /-- Navigation properties lead to types of the document. -/
  navigation : ∀ type ∈ description.types, ∀ navigation, .navigation navigation ∈ type.members →
    ∃ target ∈ description.types, definition.NavigationResolves type target navigation

variable {definition : Definition} {name : String} {set : SetDefinition} {field : FieldDefinition}

/-- A plain field is shown as a property of its wire name. -/
theorem wireName_mem_propertyNames (hfield : field ∈ set.fields)
    (hplain : field.isNavigation = false) :
    field.toField.wireName ∈ (definition.typeDescriptionOf name set).propertyNames := by
  have hmember : .property (propertyDescription field.toField (.ofDeclared field.typeWord))
      ∈ (definition.typeDescriptionOf name set).members := by
    rw [members_typeDescriptionOf]
    exact List.mem_filterMap.2 ⟨field, hfield, member?_of_not_isNavigation _ _ hplain⟩
  exact TypeDescription.mem_propertyNames hmember

/-- A navigation field is shown as a navigation property of its wire name. -/
theorem wireName_mem_navigationNames (h : definition.IsValid)
    (hset : definition.set? name = some set) (hfield : field ∈ set.fields)
    (hnavigation : field.isNavigation = true) :
    field.toField.wireName ∈ (definition.typeDescriptionOf name set).navigationNames := by
  obtain ⟨r, hr, rfl, hname⟩ := exists_relationship_of_isNavigation h
    (Ordered.mem_of_get? hset) hfield hnavigation
  have hmember : .navigation (navigationDescription definition.toRegistry.value
        (definition.typeOf r.source set) field.toField r.name ⟨r.target, r.cardinality⟩)
      ∈ (definition.typeDescriptionOf r.source set).members := by
    rw [members_typeDescriptionOf]
    exact List.mem_filterMap.2 ⟨field, hfield, member?_toRegistry h hr set hnavigation hname⟩
  exact TypeDescription.mem_navigationNames hmember

/-- The relationships of a declared set go by their own names. -/
theorem namesRelationship (h : definition.IsValid) {r : RelationshipDefinition}
    (hr : r ∈ definition.relationships) (hset : definition.set? r.source = some set) :
    definition.NamesRelationship (definition.typeDescriptionOf r.source set) r.name r.target := by
  refine ⟨r, hr, rfl, rfl, rfl, ?_⟩
  rintro ⟨source, field, hsource, hfield, hnavigation, hname⟩
  obtain rfl := Option.some.inj (hset.symm.trans hsource)
  rw [← hname]
  exact wireName_mem_navigationNames h hset hfield hnavigation

/-! ### Keys and navigation properties -/

/-- Keys are plain fields. -/
theorem mem_propertyNames_of_mem_key (h : definition.IsValid)
    (hset : definition.set? name = some set) {key : String}
    (hkey : key ∈ (definition.typeDescriptionOf name set).key) :
    key ∈ (definition.typeDescriptionOf name set).propertyNames := by
  obtain ⟨declared, hdeclared, rfl⟩ := List.mem_map.1 hkey
  obtain ⟨hmem, hisKey⟩ := List.mem_filter.1 hdeclared
  obtain ⟨field, hfield, rfl⟩ := List.mem_map.1 hmem
  exact wireName_mem_propertyNames hfield ((h.set hset).plainKey field hfield hisKey)

/-- Every navigation property of a type is that of a declared field and its relationship. -/
theorem exists_of_navigation_mem (h : definition.IsValid) (hd : definition.entitySets.Distinct)
    (hset : definition.set? name = some set) {navigation : NavigationDescription}
    (hmember : .navigation navigation ∈ (definition.typeDescriptionOf name set).members) :
    ∃ r ∈ definition.relationships, r.source = name ∧ ∃ target field,
      definition.set? r.target = some target ∧
        navigation = definition.declaredNavigation r set target field := by
  rw [members_typeDescriptionOf] at hmember
  obtain ⟨field, hfield, hshown⟩ := List.mem_filterMap.1 hmember
  cases hnavigation : field.isNavigation with
  | false =>
      rw [member?_of_not_isNavigation _ _ hnavigation] at hshown
      cases hshown
  | true =>
      obtain ⟨r, hr, rfl, hname⟩ := exists_relationship_of_isNavigation h
        (Ordered.mem_of_get? hset) hfield hnavigation
      obtain ⟨target, htarget⟩ := (h.relationships r hr).target
      rw [member?_toRegistry h hr set hnavigation hname,
        navigationDescription_toRegistry h hd r set htarget] at hshown
      cases hshown
      exact ⟨r, hr, rfl, target, field, htarget, rfl⟩

/-- The names in a navigation property resolve. -/
theorem navigationResolves (h : definition.IsValid) {r : RelationshipDefinition}
    (hr : r ∈ definition.relationships) {source target : SetDefinition}
    (hsource : definition.set? r.source = some source)
    (htarget : definition.set? r.target = some target) (field : FieldDefinition) :
    definition.NavigationResolves (definition.typeDescriptionOf r.source source)
      (definition.typeDescriptionOf r.target target)
      (definition.declaredNavigation r source target field) where
  target_eq := rfl
  partner := by
    intro partner hpartner
    obtain ⟨p, hp, rfl⟩ := Option.map_eq_some_iff.1 hpartner
    obtain ⟨hback, hto, hleads⟩ := partner?_eq_some_iff.1 hp
    have hnames := namesRelationship h hleads.mem (hback.symm ▸ htarget)
    rwa [hback, hto] at hnames
  property := by
    intro constraint hconstraint
    obtain ⟨foreignKey, hfind, rfl⟩ := Option.map_eq_some_iff.1 hconstraint
    have hmem := List.mem_of_find?_eq_some hfind
    have hname : foreignKey.name = r.name ++ "_ID" := by simpa using List.find?_some hfind
    exact ⟨r, hr, rfl, rfl, source, foreignKey, hsource, hmem, hname, rfl,
      wireName_mem_propertyNames hmem⟩
  referencedProperty := by
    intro constraint hconstraint
    obtain ⟨foreignKey, -, rfl⟩ := Option.map_eq_some_iff.1 hconstraint
    obtain ⟨key, hkey, -, hwire, hplain⟩ := (h.set htarget).exists_key
    rw [← hwire]
    exact wireName_mem_propertyNames (List.mem_of_find?_eq_some hkey) hplain

/-! ### The document -/

theorem sets_description (h : definition.IsValid) (hd : definition.entitySets.Distinct) :
    definition.toRegistry.value.description.sets
      = definition.entitySets.map fun e =>
          ⟨e.1, (definition.relationshipsFrom e.1).map fun r => (r.name, r.target)⟩ := by
  change definition.toRegistry.value.types.map _ = _
  rw [types_toRegistry hd, List.map_map]
  refine List.map_congr_left fun e _ => ?_
  rw [Function.comp_apply, setDescription, relationshipsOf_toRegistry h, List.map_map]
  rfl

/-- **The names in a document resolve.**  Targets, types, keys and referenced properties are found
in the document; paths, partners and the properties of constraints are the names of declared
relationships and fields, and are found in the document wherever a field of the right kind goes by
them. -/
theorem exists_namesResolve (h : definition.problems = []) (hd : definition.entitySets.Distinct) :
    ∃ description,
      Description.ofText? (document definition.toRegistry.value).value.xml = some description ∧
        definition.NamesResolve description := by
  have hvalid := definition.problems_eq_nil_iff.1 h
  have hsets := sets_description hvalid hd
  have hget : ∀ e ∈ definition.entitySets, definition.set? e.1 = some e.2 :=
    fun e he => Ordered.get?_of_mem hd he
  refine ⟨_, ofText?_document _, ?_, ?_, ?_, ?_⟩
  · rw [hsets, types_description hd, List.map_map, List.map_map]
    rfl
  · rw [hsets]
    intro set hset binding hbinding
    obtain ⟨e, he, rfl⟩ := List.mem_map.1 hset
    obtain ⟨r, hr, rfl⟩ := List.mem_map.1 hbinding
    obtain ⟨hmem, hsource⟩ : r ∈ definition.relationships ∧ r.source = e.1 := by
      simpa using List.mem_filter.1 hr
    obtain ⟨target, htarget⟩ := (hvalid.relationships r hmem).target
    have hdeclared : definition.set? r.source = some e.2 := hsource ▸ hget e he
    refine ⟨?_, _, mem_types_description hd hdeclared, hsource,
      namesRelationship hvalid hmem hdeclared⟩
    rw [List.map_map]
    exact List.mem_map.2 ⟨(r.target, target), Ordered.mem_of_get? htarget, rfl⟩
  · rw [types_description hd]
    intro type htype name hname
    obtain ⟨e, he, rfl⟩ := List.mem_map.1 htype
    exact mem_propertyNames_of_mem_key hvalid (hget e he) hname
  · intro type htype navigation hnavigation
    rw [types_description hd] at htype
    obtain ⟨⟨name, set⟩, he, rfl⟩ := List.mem_map.1 htype
    obtain ⟨r, hr, rfl, target, field, htarget, rfl⟩ :=
      exists_of_navigation_mem hvalid hd (hget _ he) hnavigation
    exact ⟨_, mem_types_description hd htarget,
      navigationResolves hvalid hr (hget _ he) htarget field⟩

theorem exists_namesResolve_shop :
    (shop.problems = [] ∧ shop.entitySets.Distinct) ∧
      shop.ShownByName orderCustomer ∧ shop.ShownByName customerOrders ∧
      ∃ description,
        Description.ofText? (document shop.toRegistry.value).value.xml = some description ∧
          shop.NamesResolve description ∧
          (∃ set ∈ description.sets, set.name = "Orders" ∧ ("Customer", "Customers") ∈ set.bindings ∧
            ∃ type ∈ description.types, type.name = "Orders" ∧ "Customer" ∈ type.navigationNames) ∧
          ∃ type ∈ description.types, type.name = "Orders" ∧ ∃ navigation,
            .navigation navigation ∈ type.members ∧ navigation.partner = some "Orders" ∧
            ∃ target ∈ description.types, target.name = "Customers" ∧
              "Orders" ∈ target.navigationNames := by
  have hcustomer : shop.ShownByName orderCustomer :=
    ⟨shopOrders, { name := "Customer", typeWord := "navigation" }, rfl, by decide, rfl, rfl⟩
  have horders : shop.ShownByName customerOrders :=
    ⟨shopCustomers, { name := "Orders", typeWord := "navigation" }, rfl, by decide, rfl, rfl⟩
  obtain ⟨description, hread, hresolve⟩ := exists_namesResolve problems_shop keyed_shop.sets
  refine ⟨⟨problems_shop, keyed_shop.sets⟩, hcustomer, horders, description, hread, hresolve, ?_⟩
  obtain rfl := Option.some.inj ((ofText?_document _).symm.trans hread)
  have hset : ⟨"Orders", [("Customer", "Customers")]⟩ ∈ shop.toRegistry.value.description.sets :=
    List.mem_cons_self
  have htype : shop.typeDescriptionOf "Orders" shopOrders
      ∈ shop.toRegistry.value.description.types := List.mem_cons_self
  constructor
  · obtain ⟨-, type, hmem, hname, r, hr, -, -, hrname, hshown⟩ :=
      hresolve.binding _ hset ("Customer", "Customers") List.mem_cons_self
    have heq : ∀ r ∈ shop.relationships, r.name = "Customer" → r = orderCustomer := by decide
    obtain rfl := heq r hr hrname
    exact ⟨_, hset, rfl, List.mem_cons_self, type, hmem, hname, hshown hcustomer⟩
  · obtain ⟨navigation, hmember, hpartner⟩ : ∃ navigation,
        .navigation navigation ∈ (shop.typeDescriptionOf "Orders" shopOrders).members ∧
          navigation.partner = some "Orders" :=
      ⟨_, List.mem_cons_of_mem _ (List.mem_cons_of_mem _ List.mem_cons_self), rfl⟩
    obtain ⟨target, htarget, hnavigation⟩ := hresolve.navigation _ htype navigation hmember
    obtain ⟨r, hr, hsource, -, hrname, hshown⟩ := hnavigation.partner "Orders" hpartner
    have heq : ∀ r ∈ shop.relationships, r.name = "Orders" → r = customerOrders := by decide
    obtain rfl := heq r hr hrname
    exact ⟨_, htype, rfl, navigation, hmember, hpartner, target, htarget, hsource.symm,
      hshown horders⟩

/-! ### A ledger -/

/-- Orders that show their customer under another name. -/
def ledgerOrders : SetDefinition where
  fields :=
    [{ name := "ID", typeWord := "int", isKey := true }, { name := "Customer_ID" },
      { name := "Customer", typeWord := "navigation", displayName := some "Purchaser" }]

/-- Customers who do not show their orders. -/
def ledgerCustomers : SetDefinition where
  fields := [{ name := "Code", typeWord := "int", isKey := true }, { name := "Name" }]

/-- Two relationships, neither of which is shown under its own name. -/
def ledger : Definition where
  version := "1.0"
  entitySets := [("Orders", ledgerOrders), ("Customers", ledgerCustomers)]
  relationships := [orderCustomer, customerOrders]

/-- Paths and partners need not be found.  Customers have a binding for their orders, which is also
the partner that orders name, but they have no navigation property at all; and orders have a binding
for their customer, whom they show under another name. -/
theorem path_and_partner_not_found :
    let registry := ledger.toRegistry.value
    ledger.problems = [] ∧ ledger.entitySets.Distinct ∧
      ∃ description, Description.ofText? (document registry).value.xml = some description ∧
        description.sets = [⟨"Orders", [("Customer", "Customers")]⟩,
          ⟨"Customers", [("Orders", "Orders")]⟩] ∧
        description.types.map (fun type => (type.name, type.navigationNames))
          = [("Orders", ["Purchaser"]), ("Customers", [])] ∧
        ∃ navigation, memberAt? (document registry).value.xml "Orders" 2
            = some (.navigation navigation) ∧ navigation.target = "Customers" ∧
          navigation.partner = some "Orders" := by
  intro registry
  have hproblems : ledger.problems = [] := rfl
  have hdistinct : ledger.entitySets.Distinct := by decide
  have hplace : ledger.StandsAt orderCustomer ledgerOrders 2
      { name := "Customer", typeWord := "navigation", displayName := some "Purchaser" } :=
    ⟨rfl, rfl, rfl, rfl⟩
  exact ⟨hproblems, hdistinct, _, ofText?_document _, rfl, rfl, _,
    hplace.memberAt?_document (ledger.problems_eq_nil_iff.1 hproblems) hdistinct (by decide) rfl,
    rfl, rfl⟩

/-! ### A market -/

/-- Orders that show their customer twice, once by a field that is called like a foreign key. -/
def marketOrders : SetDefinition where
  fields :=
    [{ name := "ID", typeWord := "int", isKey := true }, { name := "Buyer" },
      { name := "Customer_ID", typeWord := "navigation", expandOnly := some "Customer" },
      { name := "Customer", typeWord := "navigation" }]

/-- A relationship with an explicit foreign key, and a navigation field of the conventional name. -/
def market : Definition where
  version := "1.0"
  entitySets := [("Orders", marketOrders), ("Customers", ledgerCustomers)]
  relationships := [{ orderCustomer with foreignKey := some "Buyer" }]

/-- The property of a constraint need not be found either.  A field of the conventional name is taken
for the foreign key even if it leads to other records, so that the constraint names a navigation
property. -/
theorem constraint_property_not_found :
    market.problems = [] ∧ market.entitySets.Distinct ∧
      ∃ description,
        Description.ofText? (document market.toRegistry.value).value.xml = some description ∧
        ∃ type ∈ description.types, type.name = "Orders" ∧
          type.propertyNames = ["ID", "Buyer"] ∧ type.navigationNames = ["Customer_ID", "Customer"] ∧
          ∃ navigation, memberAt? (document market.toRegistry.value).value.xml "Orders" 3
              = some (.navigation navigation) ∧
            navigation.constraint = some ("Customer_ID", "Code") := by
  have hproblems : market.problems = [] := rfl
  have hdistinct : market.entitySets.Distinct := by decide
  have hplace : market.StandsAt { orderCustomer with foreignKey := some "Buyer" } marketOrders 3
      { name := "Customer", typeWord := "navigation" } := ⟨rfl, rfl, rfl, rfl⟩
  exact ⟨hproblems, hdistinct, _, ofText?_document _, _, List.mem_cons_self, rfl, rfl, rfl, _,
    hplace.memberAt?_document (market.problems_eq_nil_iff.1 hproblems) hdistinct (by decide) rfl,
    rfl⟩

end Definition

end OData
