/-
What a definition must be like.

Faults are looked for along the lists of a definition, and whatever depends on an unknown set or an
empty one is passed over.  This module says what a definition without faults is like in terms of
what it declares, whatever is checked first: relationships that connect declared sets by declared
fields, sets with fields and keys of their own, and records of plain values.

Main definitions:

* `Definition.ForeignKeyName` — the field that resolves a relationship, by its declared name;
* `SetDefinition.Declares`, `FieldDefinition.IsBoundTo` — plain fields of a set, and the
  relationships that fields are bound to;
* `Definition.WellFormed` — **the definitions that a service can be built from**.

Main results:

* `Definition.foreignKey?_eq_some_iff` — the field that resolves a relationship is found;
* `RelationshipDefinition.isValid_iff`, `SetDefinition.isValid_iff` — the parts of a definition;
* `Definition.problems_eq_nil_iff_wellFormed` — **no fault is found in a definition exactly if it is
  well formed**.
-/

import OData.Proofs.Definition.Valid
import OData.Proofs.Lookup
import OData.Proofs.Metadata.Partner

set_option relaxedAutoImplicit false
set_option autoImplicit false

namespace OData

/-! ### Relationships -/

/-- A relationship is resolved by the field that it declares, or else by one that is named after a
relationship: after itself if it leads to one record, and after the first relationship that leads
back if it leads to many. -/
inductive Definition.ForeignKeyName (definition : Definition) (r : RelationshipDefinition) :
    String → Prop
  | declared {key : String} : r.foreignKey = some key → ForeignKeyName definition r key
  | ofRelationship : r.foreignKey = none → r.cardinality = .oneToOne →
      ForeignKeyName definition r (r.name ++ "_ID")
  | ofPartner {p : RelationshipDefinition} : r.foreignKey = none → r.cardinality = .oneToMany →
      p.source = r.target → p.target = r.source → definition.Leads p →
      ForeignKeyName definition r (p.name ++ "_ID")

/-- A set declares a plain field of some name. -/
def SetDefinition.Declares (set : SetDefinition) (name : String) : Prop :=
  ∃ field ∈ set.fields, field.name = name ∧ field.isNavigation = false

/-- A relationship connects declared sets, and one of them declares the field that resolves it: the
source if it leads to one record, and the target if it leads to many. -/
def RelationshipDefinition.IsResolved (definition : Definition) (r : RelationshipDefinition) :
    Prop :=
  ∃ source target key, definition.set? r.source = some source ∧
    definition.set? r.target = some target ∧ definition.ForeignKeyName r key ∧
    match r.cardinality with
    | .oneToOne => source.Declares key
    | .oneToMany => target.Declares key

/-- The field that resolves a relationship is found. -/
theorem Definition.foreignKey?_eq_some_iff {definition : Definition} {r : RelationshipDefinition}
    {key : String} : definition.foreignKey? r = some key ↔ definition.ForeignKeyName r key := by
  constructor
  · intro h
    unfold foreignKey? at h
    split at h
    · next declared hdeclared => exact Option.some.inj h ▸ .declared hdeclared
    · next hnone =>
        split at h
        · next hcard => exact Option.some.inj h ▸ .ofRelationship hnone hcard
        · next hcard =>
            obtain ⟨p, hp, rfl⟩ := Option.map_eq_some_iff.1 h
            obtain ⟨hsource, htarget, hleads⟩ := partner?_eq_some_iff.1 hp
            exact .ofPartner hnone hcard hsource htarget hleads
  · intro h
    cases h with
    | declared hdeclared => simp [foreignKey?, hdeclared]
    | ofRelationship hnone hcard => simp [foreignKey?, hnone, hcard]
    | ofPartner hnone hcard hsource htarget hleads =>
        have hp := partner?_eq_some_iff.2 ⟨hsource, htarget, hleads⟩
        simp [foreignKey?, hnone, hcard, hp]

theorem SetDefinition.hasPlainField_iff {set : SetDefinition} {name : String} :
    set.hasPlainField name = true ↔ set.Declares name := by
  simp [hasPlainField, Declares]

/-- What resolves a relationship is a plain field of its source if it leads to one record, and of its
target if it leads to many. -/
theorem RelationshipDefinition.exists_keyOwner_iff {definition : Definition}
    {r : RelationshipDefinition} {source target : SetDefinition} {key : String}
    (hsource : definition.set? r.source = some source)
    (htarget : definition.set? r.target = some target) :
    (∃ owner, definition.set? r.keyOwner = some owner ∧ owner.hasPlainField key = true) ↔
      match r.cardinality with
      | .oneToOne => source.Declares key
      | .oneToMany => target.Declares key := by
  rw [keyOwner]
  cases r.cardinality with
  | oneToOne => simp [hsource, SetDefinition.hasPlainField_iff]
  | oneToMany => simp [htarget, SetDefinition.hasPlainField_iff]

theorem RelationshipDefinition.isValid_iff {definition : Definition} {r : RelationshipDefinition} :
    r.IsValid definition ↔ r.IsResolved definition := by
  constructor
  · rintro ⟨⟨source, hsource⟩, ⟨target, htarget⟩, key, owner, hkey, howner, hplain⟩
    have hdeclares := (exists_keyOwner_iff hsource htarget).1 ⟨owner, howner, hplain⟩
    exact ⟨source, target, key, hsource, htarget, Definition.foreignKey?_eq_some_iff.1 hkey,
      hdeclares⟩
  · rintro ⟨source, target, key, hsource, htarget, hkey, hdeclares⟩
    obtain ⟨owner, howner, hplain⟩ := (exists_keyOwner_iff hsource htarget).2 hdeclares
    exact ⟨⟨source, hsource⟩, ⟨target, htarget⟩, key, owner,
      Definition.foreignKey?_eq_some_iff.2 hkey, howner, hplain⟩

/-! ### Entity sets -/

/-- A field is bound to a relationship: by its own declaration, or by its name if it is a navigation
field. -/
def FieldDefinition.IsBoundTo (field : FieldDefinition) (relationship : String) : Prop :=
  field.expandOnly = some relationship ∨
    field.expandOnly = none ∧ field.isNavigation = true ∧ field.name = relationship

/-- A set has fields of different names and a key, its key fields are plain ones, its navigation
fields and expand-only fields are bound to relationships that start from it, and its records hold
plain values of plain fields. -/
structure SetDefinition.WellFormed (definition : Definition) (name : String) (set : SetDefinition) :
    Prop where
  fields : set.fields ≠ []
  names : set.fields.Pairwise fun field other => field.name ≠ other.name
  key : ∃ field ∈ set.fields, field.isKey = true
  plainKey : ∀ field ∈ set.fields, ¬ (field.isKey = true ∧ field.isNavigation = true)
  bound : ∀ field ∈ set.fields, field.isNavigation = true ∨ field.expandOnly ≠ none →
    ∃ r ∈ definition.relationships, r.source = name ∧ field.IsBoundTo r.name
  members : ∀ record ∈ set.records, ∀ member ∈ record,
    set.Declares member.1 ∧ member.2.isContainer = false

theorem FieldDefinition.relationship?_eq_some_iff {field : FieldDefinition} {name : String} :
    field.relationship? = some name ↔ field.IsBoundTo name := by
  rw [relationship?, IsBoundTo]
  cases field.expandOnly <;> simp

theorem FieldDefinition.exists_isBoundTo {field : FieldDefinition}
    (h : field.isNavigation = true ∨ field.expandOnly ≠ none) : ∃ name, field.IsBoundTo name := by
  cases hexpand : field.expandOnly with
  | some name => exact ⟨name, .inl hexpand⟩
  | none => exact ⟨field.name, .inr ⟨hexpand, h.resolve_right fun hne => hne hexpand, rfl⟩⟩

theorem FieldDefinition.IsBoundTo.unique {field : FieldDefinition} {name other : String}
    (h : field.IsBoundTo name) (h' : field.IsBoundTo other) : name = other :=
  Option.some.inj ((relationship?_eq_some_iff.2 h).symm.trans (relationship?_eq_some_iff.2 h'))

/-- What a field is bound to is declared, if it is a field that is bound. -/
theorem FieldDefinition.bound_iff {definition : Definition} {set : String}
    {field : FieldDefinition} :
    (∀ relationship ∈ field.relationship?, definition.hasRelationship set relationship = true) ↔
      (field.isNavigation = true ∨ field.expandOnly ≠ none →
        ∃ r ∈ definition.relationships, r.source = set ∧ field.IsBoundTo r.name) := by
  constructor
  · intro h hkind
    obtain ⟨name, hbound⟩ := exists_isBoundTo hkind
    have hdeclared := h name (relationship?_eq_some_iff.2 hbound)
    obtain ⟨r, hr, hsource, rfl⟩ :
        ∃ r ∈ definition.relationships, r.source = set ∧ r.name = name := by
      simpa [Definition.hasRelationship] using hdeclared
    exact ⟨r, hr, hsource, hbound⟩
  · intro h name hname
    have hbound := relationship?_eq_some_iff.1 hname
    obtain ⟨r, hr, hsource, hrbound⟩ := h <| by
      rcases hbound with hexpand | ⟨-, hnavigation, -⟩
      · exact .inr (by simp [hexpand])
      · exact .inl hnavigation
    obtain rfl := hrbound.unique hbound
    simpa [Definition.hasRelationship] using ⟨r, hr, hsource, rfl⟩

/-- There is one field that a member can belong to if the names of the fields differ. -/
theorem SetDefinition.holdsMember_iff {set : SetDefinition} (h : (set.fields.map (·.name)).Nodup)
    {member : String × Json} :
    set.HoldsMember member ↔ set.Declares member.1 ∧ member.2.isContainer = false := by
  have hfind : ∀ field, set.fields.find? (·.name == member.1) = some field ↔
      field ∈ set.fields ∧ field.name = member.1 :=
    fun _ => find?_eq_some_iff FieldDefinition.name h
  simp only [HoldsMember, Declares, hfind]
  constructor
  · rintro ⟨field, ⟨hmem, hname⟩, hplain, hvalue⟩
    exact ⟨⟨field, hmem, hname, hplain⟩, hvalue⟩
  · rintro ⟨⟨field, hmem, hname, hplain⟩, hvalue⟩
    exact ⟨field, ⟨hmem, hname⟩, hplain, hvalue⟩

theorem SetDefinition.isValid_iff {definition : Definition} {name : String} {set : SetDefinition} :
    set.IsValid definition name ↔ set.WellFormed definition name := by
  have hnames : (set.fields.map (·.name)).Nodup ↔
      set.fields.Pairwise fun field other => field.name ≠ other.name := List.pairwise_map
  constructor
  · intro h
    refine ⟨h.fields, hnames.1 h.names, h.key, fun field hfield hboth => ?_,
      fun field hfield => FieldDefinition.bound_iff.1 (h.bound field hfield),
      fun record hrecord member hmember =>
        (holdsMember_iff h.names).1 (h.records record hrecord member hmember)⟩
    have hplain := h.plainKey field hfield hboth.1
    rw [hboth.2] at hplain
    cases hplain
  · intro h
    have hnodup := hnames.2 h.names
    refine ⟨h.fields, hnodup,
      fun field hfield => FieldDefinition.bound_iff.2 (h.bound field hfield),
      fun field hfield hkey => ?_, h.key,
      fun record hrecord member hmember =>
        (holdsMember_iff hnodup).2 (h.members record hrecord member hmember)⟩
    cases hnavigation : field.isNavigation with
    | false => rfl
    | true => exact absurd ⟨hkey, hnavigation⟩ (h.plainKey field hfield)

/-! ### Whole definitions -/

namespace Definition

/-- A definition of the known version, with a namespace that can be written, relationships that
differ in their source or in their name, and well-formed parts. -/
structure WellFormed (definition : Definition) : Prop where
  version : definition.version = "1.0"
  schemaName_ne : definition.schemaName ≠ ""
  schemaName_plain : ∀ c ∈ definition.schemaName.toList, Text.isBlank c = false ∧ c ≠ '"'
  names : definition.relationships.Pairwise fun r s => ¬ (r.source = s.source ∧ r.name = s.name)
  relationships : ∀ r ∈ definition.relationships, r.IsResolved definition
  sets : ∀ entry ∈ definition.entitySets, entry.2.WellFormed definition entry.1

theorem isValid_iff {definition : Definition} : definition.IsValid ↔ definition.WellFormed := by
  have hnames : (definition.relationships.map fun r => (r.source, r.name)).Nodup ↔
      definition.relationships.Pairwise fun r s => ¬ (r.source = s.source ∧ r.name = s.name) := by
    rw [List.Nodup, List.pairwise_map]
    simp only [ne_eq, Prod.mk.injEq]
  constructor
  · intro h
    exact ⟨h.version, h.schemaName_ne, h.schemaName_plain, hnames.1 h.names,
      fun r hr => RelationshipDefinition.isValid_iff.1 (h.relationships r hr),
      fun entry hentry => SetDefinition.isValid_iff.1 (h.sets entry hentry)⟩
  · intro h
    exact ⟨h.version, h.schemaName_ne, h.schemaName_plain, hnames.2 h.names,
      fun r hr => RelationshipDefinition.isValid_iff.2 (h.relationships r hr),
      fun entry hentry => SetDefinition.isValid_iff.2 (h.sets entry hentry)⟩

instance (definition : Definition) : Decidable definition.WellFormed :=
  decidable_of_iff _ (definition.problems_eq_nil_iff.trans isValid_iff)

/-- **No fault is found in a definition exactly if it is well formed.** -/
theorem problems_eq_nil_iff_wellFormed (definition : Definition) :
    definition.problems = [] ↔ definition.WellFormed :=
  definition.problems_eq_nil_iff.trans isValid_iff

/-- Without a relationship that leads back, nothing names the foreign key of one to many. -/
example : shop.WellFormed ∧ ¬ { shop with relationships := [customerOrders] }.WellFormed := by
  decide

end Definition

end OData
