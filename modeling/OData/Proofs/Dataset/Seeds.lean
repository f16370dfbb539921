/-
Declared sets in the registry of a definition.

A definition says what its records hold, member by member; a registry offers records with types,
handlers and values.  This module leads from the one to the other: which type, which handler and
which records a declared set has in the registry of its definition, and what the text of a field of
such a record is.

Main definitions:

* `Definition.Keyed` — names lead to one set and to one member each, as in the maps that a
  definition is made of;
* `keyText?` — the text by which a declared member is matched;
* `Definition.seed`, `Definition.record` — a declared record as a seed record, and for requests.

Main results:

* `keyOf?_seed` — the text of a field of a seed record is that of the declared member;
* `Definition.records_ofDefinition`, `Definition.find?_ofDefinition` — the records of a set;
* `Definition.sets_toRegistry` — **the registry holds the declared sets in their order**;
* `Definition.capability_toRegistry` — how a declared set resolves relationships;
* `Definition.ignoresSubQuery_toRegistry` — none looks at the text in parentheses.
-/

import Mathlib.Data.List.Find
import OData.Dataset.Build
import OData.Proofs.Definition.Valid
import OData.Proofs.Lookup
import OData.Proofs.Registry.Registrations

set_option relaxedAutoImplicit false
set_option autoImplicit false

namespace OData

/-- No name has two sets, and no record has two members of a name.  `Definition.keyed_of_ofText` says
so of every definition that a text writes. -/
structure Definition.Keyed (definition : Definition) : Prop where
  sets : definition.entitySets.Distinct
  members : ∀ entry ∈ definition.entitySets, ∀ record ∈ entry.2.records, Ordered.Distinct record

/-- The text by which a member of a declared record is matched.  A member that is missing or null
has none. -/
def keyText? (members : Ordered Json) (field : String) : Option String :=
  ((Ordered.get? field members).bind Scalar.ofJson?).bind Scalar.key?

/-- The name of the first key field of a set. -/
def SetDefinition.keyName (set : SetDefinition) : String :=
  ((set.fields.find? (·.isKey)).map (·.name)).getD "ID"

/-- The wire names of the fields of a set, in the order of declaration. -/
def SetDefinition.wireNames (set : SetDefinition) : List String :=
  set.fields.map (·.toField.wireName)

/-- Whether a field of some name is declared to be written only with a relationship. -/
def SetDefinition.isExpandOnly (set : SetDefinition) (name : String) : Bool :=
  set.fields.any fun field => field.name == name && field.expandOnly.isSome

/-- The first key field of a set is a plain one. -/
theorem SetDefinition.IsValid.exists_firstKey {definition : Definition} {name : String}
    {set : SetDefinition} (h : set.IsValid definition name) :
    ∃ field, set.fields.find? (·.isKey) = some field ∧ field ∈ set.fields ∧ field.isKey = true ∧
      field.isNavigation = false := by
  obtain ⟨field, hfind⟩ : ∃ field, set.fields.find? (·.isKey) = some field := by
    simpa [List.find?_isSome, ← Option.isSome_iff_exists] using h.key
  have hmem := List.mem_of_find?_eq_some hfind
  have hkey : field.isKey = true := by simpa using List.find?_some hfind
  exact ⟨field, hfind, hmem, hkey, h.plainKey field hmem hkey⟩

theorem SetDefinition.IsValid.exists_keyField {definition : Definition} {name : String}
    {set : SetDefinition} (h : set.IsValid definition name) :
    ∃ field ∈ set.fields, field.name = set.keyName ∧ field.isKey = true ∧
      field.isNavigation = false := by
  obtain ⟨field, hfind, hmem, hkey, hplain⟩ := h.exists_firstKey
  exact ⟨field, hmem, by rw [keyName, hfind]; rfl, hkey, hplain⟩

theorem SetDefinition.exists_plainField {set : SetDefinition} {name : String}
    (h : set.hasPlainField name = true) :
    ∃ field ∈ set.fields, field.name = name ∧ field.isNavigation = false := by
  simpa [hasPlainField] using h

namespace Definition

variable (definition : Definition)

/-- A declared record of a set as a seed record. -/
def seed (name : String) (set : SetDefinition) (members : Ordered Json) : SeedRecord :=
  ⟨definition.typeOf name set, SeedRecord.plainValues members⟩

/-- A declared record of a set as requests see it. -/
def record (name : String) (set : SetDefinition) (members : Ordered Json) : Record :=
  (definition.seed name set members).toRecord

/-! ### Types -/

theorem keyName_typeOf (name : String) (set : SetDefinition) :
    (definition.typeOf name set).keyName = set.keyName := by
  have hkeys : ((definition.typeOf name set).keyFields).head?
      = (set.fields.find? (·.isKey)).map (·.toField) := by
    rw [EntityType.keyFields, typeOf, List.head?_filter, List.find?_map]
    rfl
  rw [EntityType.keyName, hkeys, SetDefinition.keyName, Option.map_map]
  rfl

/-- The wire name of a declared field is looked up by its declared name. -/
theorem wireNameOf_typeOf {name : String} {set : SetDefinition} {field : FieldDefinition}
    (hnames : (set.fields.map (·.name)).Nodup) (hfield : field ∈ set.fields) :
    (definition.typeOf name set).wireNameOf field.name = field.toField.wireName := by
  have hfind : set.fields.find? (fun f => f.name = field.name) = some field :=
    find?_eq_some_of_mem FieldDefinition.name hnames hfield
  have htype : (definition.typeOf name set).find? field.name = some field.toField := by
    rw [EntityType.find?, typeOf, List.find?_map]
    exact congrArg (Option.map FieldDefinition.toField) hfind
  rw [EntityType.wireNameOf, htype]
  rfl

/-! ### Seed records -/

/-- The plain values of a record are those of its members that have one. -/
theorem get?_plainValues {members : Ordered Json} (hd : members.Distinct) (field : String) :
    Ordered.get? field (SeedRecord.plainValues members)
      = (Ordered.get? field members).bind Scalar.ofJson? := by
  have hsub := Ordered.keys_filterMap_sublist (fun _ value => Scalar.ofJson? value) members
  rw [SeedRecord.plainValues, Ordered.ofList_eq_self (hd.sublist hsub)]
  exact Ordered.get?_filterMap hd (fun _ value => Scalar.ofJson? value) field

theorem keyOf?_seed {members : Ordered Json} (hd : members.Distinct) (name : String)
    (set : SetDefinition) (field : String) :
    (definition.seed name set members).keyOf? field = keyText? members field := by
  rw [SeedRecord.keyOf?, SeedRecord.get?, seed, get?_plainValues hd, keyText?]

/-! ### The dataset -/

theorem get?_ofDefinition (name : String) :
    Ordered.get? name (Dataset.ofDefinition definition)
      = (definition.set? name).map fun set =>
          ⟨definition.typeOf name set, set.records.map (definition.seed name set)⟩ :=
  Ordered.get?_map (fun name (set : SetDefinition) => SeedSet.mk (definition.typeOf name set)
    (set.records.map (definition.seed name set))) name definition.entitySets

variable {definition}

theorem records_ofDefinition {name : String} {set : SetDefinition}
    (hset : definition.set? name = some set) :
    (Dataset.ofDefinition definition).records name = set.records.map (definition.seed name set) := by
  rw [Dataset.records, get?_ofDefinition, hset]
  rfl

/-- Records are gathered by the text of a field. -/
theorem filter_records_ofDefinition {name : String} {set : SetDefinition}
    (hset : definition.set? name = some set) (hd : ∀ record ∈ set.records, Ordered.Distinct record)
    (field key : String) :
    ((Dataset.ofDefinition definition).records name).filter
        (fun record => record.keyOf? field == some key)
      = (set.records.filter fun record => keyText? record field == some key).map
          (definition.seed name set) := by
  rw [records_ofDefinition hset, List.filter_map]
  congr 1
  refine List.filter_congr fun record hrecord => ?_
  rw [Function.comp_apply, keyOf?_seed definition (hd record hrecord)]

/-- A record is found by the text of its first key field. -/
theorem find?_ofDefinition {name : String} {set : SetDefinition}
    (hset : definition.set? name = some set) (hd : ∀ record ∈ set.records, Ordered.Distinct record)
    (key : String) :
    (Dataset.ofDefinition definition).find? name key
      = (set.records.find? fun record => keyText? record set.keyName == some key).map
          (definition.seed name set) := by
  rw [Dataset.find?, get?_ofDefinition, hset, Option.map_some, Option.bind_some, List.find?_map,
    keyName_typeOf]
  congr 1
  refine List.find?_congr fun record hrecord => ?_
  rw [Function.comp_apply, keyOf?_seed definition (hd record hrecord)]

theorem Keyed.distinct_record (h : definition.Keyed) {name : String} {set : SetDefinition}
    (hset : definition.set? name = some set) {record : Ordered Json} (hrecord : record ∈ set.records) :
    record.Distinct :=
  h.members _ (Ordered.mem_of_get? hset) record hrecord

theorem IsValid.set (h : definition.IsValid) {name : String} {set : SetDefinition}
    (hset : definition.set? name = some set) : set.IsValid definition name :=
  h.sets _ (Ordered.mem_of_get? hset)

/-! ### The registry -/

variable (definition)

theorem schemaName_toRegistry : definition.toRegistry.value.schemaName = definition.schemaName := by
  rw [value_toRegistry, Registry.schemaName_ofRegistrations]

/-- The entity sets that a definition registers are those that it declares. -/
theorem filterMap_registeredSet?_registrations :
    (definition.registrations.map (·.value)).filterMap Registration.registeredSet?
      = definition.entitySets.map fun e => (e.1, ⟨definition.typeOf e.1 e.2,
          definition.handlerOf (Dataset.ofDefinition definition) e.1 e.2⟩) := by
  have hrelationships : definition.relationships.filterMap
      (fun r => (relationshipRegistration r).registeredSet?) = [] :=
    List.filterMap_eq_nil_iff.2 fun _ _ => rfl
  rw [registrations, List.map_append, List.map_map, List.map_map, List.filterMap_append,
    List.filterMap_map, List.filterMap_map]
  refine (congrArg _ hrelationships).trans ((List.append_nil _).trans ?_)
  exact congrFun List.filterMap_eq_map' definition.entitySets

/-- **The registry holds the declared sets in their order**, each under its name, with the type and
the handler that it declares. -/
theorem sets_toRegistry (h : definition.entitySets.Distinct) :
    definition.toRegistry.value.sets
      = definition.entitySets.map fun e => (e.1, ⟨definition.typeOf e.1 e.2,
          definition.handlerOf (Dataset.ofDefinition definition) e.1 e.2⟩) := by
  have hd : Ordered.Distinct (definition.entitySets.map fun e => (e.1,
      (⟨definition.typeOf e.1 e.2,
        definition.handlerOf (Dataset.ofDefinition definition) e.1 e.2⟩ : EntitySet))) := by
    rw [Ordered.Distinct, Ordered.keys, List.map_map]
    exact h
  rw [value_toRegistry, Registry.sets_ofRegistrations, filterMap_registeredSet?_registrations,
    Ordered.ofList_eq_self hd]

/-- A set is found in the registry by its name. -/
theorem set?_toRegistry (h : definition.entitySets.Distinct) (name : String) :
    definition.toRegistry.value.set? name
      = (definition.set? name).map fun set => ⟨definition.typeOf name set,
          definition.handlerOf (Dataset.ofDefinition definition) name set⟩ := by
  rw [Registry.set?_eq, sets_toRegistry definition h]
  exact Ordered.get?_map (fun name (set : SetDefinition) => EntitySet.mk (definition.typeOf name set)
    (definition.handlerOf (Dataset.ofDefinition definition) name set)) name definition.entitySets

/-- A set resolves relationships by its links if it has the expand capability. -/
theorem capability_toRegistry (h : definition.entitySets.Distinct) {name : String}
    {set : SetDefinition} (hset : definition.set? name = some set) :
    definition.toRegistry.value.capability name
      = if set.capabilities.expand then
          (Dataset.ofDefinition definition).capability
            (linksOf definition (definition.typeOf name set))
        else Capability.none := by
  rw [Registry.capability, set?_toRegistry definition h, hset]
  rfl

/-- **Seed records are related by their fields alone**, whatever stands in parentheses. -/
theorem ignoresSubQuery_toRegistry : definition.toRegistry.value.IgnoresSubQuery := by
  rw [value_toRegistry]
  refine Registry.ignoresSubQuery_ofRegistrations _ fun registration hmem => ?_
  rw [registrations, List.map_append, List.map_map, List.map_map, List.mem_append] at hmem
  rcases hmem with hset | hrelationship
  · obtain ⟨⟨name, set⟩, -, rfl⟩ := List.mem_map.1 hset
    show Capability.IgnoresSubQuery (if set.capabilities.expand then
      (Dataset.ofDefinition definition).capability (linksOf definition (definition.typeOf name set))
      else Capability.none)
    split
    · exact fun _ _ _ _ => rfl
    · exact Capability.ignoresSubQuery_none
  · obtain ⟨r, -, rfl⟩ := List.mem_map.1 hrelationship
    trivial

end Definition

end OData
