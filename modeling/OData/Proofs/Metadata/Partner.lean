/-
Partners: relationships that lead back.

The partner of a relationship is the first one that is declared from its target back to its source.
Partners therefore belong to two sets and not to a relationship: several relationships between the
same sets share one partner, and that has only the first of them as its own.  Where a set is related
to itself, the first such relationship is the partner of all of them, itself included.

The partner is looked for twice: by the links among all relationships that are declared, and by the
document among those that are registered for the target.  Both find the same, so that the partner
that a navigation property shows tells the field by which the records of a relationship to many are
gathered.

* `Definition.Leads` — the first relationship from its source to its target;
* `Definition.partner?_eq_some_iff` — partners lead back;
* `Definition.exists_partner?` — whatever is led back to has a partner;
* `Definition.partner?_mutual_iff` — **a relationship is the partner of its partner exactly if it is
  the first one**, in the definition as in the registry and its document;
* `Definition.partner_shown_used` — **the partner that is shown is the partner that is used**.
-/

import OData.Proofs.Metadata.Element

set_option relaxedAutoImplicit false
set_option autoImplicit false

namespace OData.Definition

variable {definition : Definition} {r p : RelationshipDefinition}

/-- A relationship is the first that is declared from its source to its target. -/
def Leads (definition : Definition) (r : RelationshipDefinition) : Prop :=
  ∃ before after, definition.relationships = before ++ r :: after ∧
    ∀ s ∈ before, s.source = r.source → s.target ≠ r.target

theorem Leads.mem (h : definition.Leads r) : r ∈ definition.relationships := by
  obtain ⟨before, after, heq, -⟩ := h
  simp [heq]

/-- The partner of a relationship is the first one that leads back. -/
theorem partner?_eq_some_iff :
    definition.partner? r = some p ↔
      p.source = r.target ∧ p.target = r.source ∧ definition.Leads p := by
  rw [partner?, List.find?_eq_some_iff_append]
  simp only [Bool.and_eq_true, beq_iff_eq, Bool.not_eq_true', Bool.and_eq_false_iff,
    beq_eq_false_iff_ne]
  constructor
  · rintro ⟨⟨hsource, htarget⟩, before, after, heq, hbefore⟩
    refine ⟨hsource, htarget, before, after, heq, fun s hs hsame => ?_⟩
    rw [htarget]
    exact (hbefore s hs).resolve_left fun hne => hne (hsame.trans hsource)
  · rintro ⟨hsource, htarget, before, after, heq, hbefore⟩
    refine ⟨⟨hsource, htarget⟩, before, after, heq, fun s hs => ?_⟩
    by_cases hsame : s.source = r.target
    · exact .inr (htarget ▸ hbefore s hs (hsame.trans hsource.symm))
    · exact .inl hsame

/-- A relationship that another one leads back from has a partner. -/
theorem exists_partner? (hr : r ∈ definition.relationships) (hsource : p.source = r.target)
    (htarget : p.target = r.source) : ∃ first, definition.partner? p = some first := by
  have hsome : (definition.partner? p).isSome = true := by
    rw [partner?, List.find?_isSome]
    exact ⟨r, hr, by simp [hsource, htarget]⟩
  exact Option.isSome_iff_exists.1 hsome

/-- Relationships from one set have different names. -/
theorem IsValid.eq_of_name_eq (h : definition.IsValid) {s : RelationshipDefinition}
    (hr : r ∈ definition.relationships) (hs : s ∈ definition.relationships)
    (hsource : s.source = r.source) (hname : s.name = r.name) : s = r :=
  List.inj_on_of_nodup_map h.names hs hr (Prod.ext hsource hname)

/-- **A relationship is the partner of its partner exactly if it is the first one** from its source
to its target.  Its partner leads from its target back to its source, and has the first relationship
between the two sets as its own partner; it is the relationship itself exactly if that is the first
one from a set to itself.  A navigation property carries the partner of its relationship, and the
registry finds the same partner for that. -/
theorem partner?_mutual_iff (h : definition.problems = []) (hd : definition.entitySets.Distinct)
    (hr : r ∈ definition.relationships) (hp : definition.partner? r = some p) :
    let registry := definition.toRegistry.value
    (p ∈ definition.relationships ∧ p.source = r.target ∧ p.target = r.source) ∧
      (∃ first, definition.partner? p = some first ∧ first.source = r.source ∧
        first.target = r.target ∧ definition.Leads first) ∧
      (definition.partner? p = some r ↔ definition.Leads r) ∧
      (p = r ↔ definition.Leads r ∧ r.source = r.target) ∧
      (∀ source place field, definition.StandsAt r source place field →
        ∃ navigation, Metadata.memberAt? (Metadata.document registry).value.xml r.source place
          = some (.navigation navigation) ∧ navigation.partner = some p.name) ∧
      (Metadata.partner? registry p.source p.target = some r.name ↔ definition.Leads r) := by
  intro registry
  have hvalid := definition.problems_eq_nil_iff.1 h
  obtain ⟨hsource, htarget, hleads⟩ := partner?_eq_some_iff.1 hp
  have hmutual : definition.partner? p = some r ↔ definition.Leads r := by
    rw [partner?_eq_some_iff, hsource, htarget]
    simp
  obtain ⟨first, hfirst⟩ := exists_partner? hr hsource htarget
  obtain ⟨hfirstSource, hfirstTarget, hfirstLeads⟩ := partner?_eq_some_iff.1 hfirst
  refine ⟨⟨hleads.mem, hsource, htarget⟩, ⟨first, hfirst, hfirstSource.trans htarget,
    hfirstTarget.trans hsource, hfirstLeads⟩, hmutual, ?_, ?_, ?_⟩
  · constructor
    · rintro rfl
      exact ⟨hleads, hsource⟩
    · rintro ⟨hfirst, hself⟩
      have hown : definition.partner? r = some r :=
        partner?_eq_some_iff.2 ⟨hself, hself.symm, hfirst⟩
      exact Option.some.inj (hp.symm.trans hown)
  · intro source place field hplace
    obtain ⟨target, htarget⟩ := (hvalid.relationships r hr).target
    refine ⟨_, hplace.memberAt?_document hvalid hd hr htarget, ?_⟩
    rw [declaredNavigation, hp]
    rfl
  · -- the registry finds a name, which belongs to one relationship only
    rw [partner?_toRegistry hvalid, hfirst, Option.map_some, Option.some.injEq, ← hmutual, hfirst,
      Option.some.injEq]
    constructor
    · exact hvalid.eq_of_name_eq hr hfirstLeads.mem (hfirstSource.trans htarget)
    · rintro rfl
      rfl

/-! ### Invoices -/

/-- Orders that somebody gives and somebody pays. -/
def billedOrders : SetDefinition where
  fields :=
    [{ name := "ID", typeWord := "int", isKey := true }, { name := "Customer_ID" },
      { name := "Payer_ID" }, { name := "Customer", typeWord := "navigation" },
      { name := "Payer", typeWord := "navigation" }]

/-- The customer who pays an order. -/
def orderPayer : RelationshipDefinition where
  source := "Orders"
  name := "Payer"
  target := "Customers"
  cardinality := .oneToOne

/-- Two relationships from orders to customers, and one that leads back. -/
def billing : Definition where
  version := "1.0"
  entitySets := [("Orders", billedOrders), ("Customers", shopCustomers)]
  relationships := [orderCustomer, orderPayer, customerOrders]

theorem partner?_mutual_iff_billing :
    let registry := billing.toRegistry.value
    (billing.problems = [] ∧ billing.entitySets.Distinct ∧ orderPayer ∈ billing.relationships ∧
      billing.partner? orderPayer = some customerOrders) ∧
      (customerOrders ∈ billing.relationships ∧ customerOrders.source = orderPayer.target ∧
        customerOrders.target = orderPayer.source) ∧
      (∃ first, billing.partner? customerOrders = some first ∧
        first.source = orderPayer.source ∧ first.target = orderPayer.target ∧
        billing.Leads first) ∧
      (billing.partner? customerOrders = some orderPayer ↔ billing.Leads orderPayer) ∧
      (customerOrders = orderPayer ↔
        billing.Leads orderPayer ∧ orderPayer.source = orderPayer.target) ∧
      (∀ source place field, billing.StandsAt orderPayer source place field →
        ∃ navigation, Metadata.memberAt? (Metadata.document registry).value.xml "Orders" place
          = some (.navigation navigation) ∧ navigation.partner = some "Orders") ∧
      (Metadata.partner? registry "Customers" "Orders" = some "Payer" ↔
        billing.Leads orderPayer) :=
  have hproblems : billing.problems = [] := rfl
  have hdistinct : billing.entitySets.Distinct := by decide
  have hmem : orderPayer ∈ billing.relationships := by decide
  have hpartner : billing.partner? orderPayer = some customerOrders := rfl
  ⟨⟨hproblems, hdistinct, hmem, hpartner⟩,
    partner?_mutual_iff hproblems hdistinct hmem hpartner⟩

/-- Neither definition has faults, and yet the payer of an order is not the partner of its partner,
and the manager of an employee is the partner of itself. -/
theorem not_partner?_mutual :
    (billing.problems = [] ∧ orderPayer ∈ billing.relationships ∧
      billing.partner? orderPayer = some customerOrders ∧
      billing.partner? customerOrders = some orderCustomer ∧ orderCustomer ≠ orderPayer ∧
      Metadata.partner? billing.toRegistry.value "Orders" "Customers" = some "Orders" ∧
      Metadata.partner? billing.toRegistry.value "Customers" "Orders" = some "Customer") ∧
    staff.problems = [] ∧ ∃ manager ∈ staff.relationships,
      manager.name = "Manager" ∧ staff.partner? manager = some manager :=
  ⟨⟨rfl, by decide, rfl, rfl, by decide, rfl, rfl⟩, rfl, _, List.mem_cons_self, rfl, rfl⟩

/-! ### The partner that is used -/

/-- **The partner that is shown is the partner that is used.**  A navigation property shows the name
of the partner of its relationship, and none if there is no partner.  A relationship to many without
an explicit foreign key has a partner, and its records are gathered by a plain field that the target
declares under the name that is shown with `_ID` behind it. -/
theorem partner_shown_used (h : definition.problems = []) (hk : definition.Keyed)
    (hr : r ∈ definition.relationships) {source : SetDefinition} {place : Nat}
    {field : FieldDefinition} (hplace : definition.StandsAt r source place field) :
    ∃ element, Metadata.fieldElement? (Metadata.document definition.toRegistry.value).value.xml
        r.source place = some element ∧
      element.name = "NavigationProperty" ∧
      element.attribute? "Partner" = (definition.partner? r).map (·.name) ∧
      (r.cardinality = .oneToMany → r.foreignKey = none →
        ∃ partner target foreignKey key, element.attribute? "Partner" = some partner ∧
          definition.set? r.target = some target ∧
          foreignKey ∈ target.fields ∧ foreignKey.isNavigation = false ∧
          foreignKey.name = partner ++ "_ID" ∧ source.fields.find? (·.isKey) = some key ∧
          definition.GathersBy r source target key.toField.wireName (partner ++ "_ID")) := by
  have hvalid := definition.problems_eq_nil_iff.1 h
  obtain ⟨hkind, -, -, hpartner⟩ := Metadata.attribute?_navigationElement definition.toRegistry.value
    (definition.typeOf r.source source) field.toField r.name ⟨r.target, r.cardinality⟩
  have hshown := hpartner.trans (partner?_toRegistry hvalid r)
  refine ⟨_, hplace.fieldElement?_document hvalid hk.sets hr, hkind, hshown,
    fun hcard hexplicit => ?_⟩
  obtain ⟨_, target, hforeign, htarget, hplain⟩ := (hvalid.relationships r hr).foreignKey
  obtain ⟨foreignKey, hmem, rfl, hfield⟩ := target.exists_plainField hplain
  obtain ⟨key, hkey, hkeyName, -, -⟩ := (hvalid.set hplace.source_eq).exists_key
  rw [RelationshipDefinition.keyOwner, hcard] at htarget
  -- without an explicit foreign key it is that of the partner, so that there is one
  obtain ⟨partner, hfound, hname⟩ : ∃ partner, definition.partner? r = some partner ∧
      partner.name ++ "_ID" = foreignKey.name := by
    rw [foreignKey?, hexplicit, hcard] at hforeign
    exact Option.map_eq_some_iff.1 hforeign
  refine ⟨partner.name, target, foreignKey, key, ?_, htarget, hmem, hfield, hname.symm, hkey, ?_⟩
  · rw [hshown, hfound, Option.map_some]
  · rw [hname]
    exact gathersBy hvalid hk hr hcard hplace.source_eq htarget (List.mem_of_find?_eq_some hkey)
      hkeyName hforeign

/-- Two relationships lead from orders to customers; the first is shown and used. -/
theorem partner_shown_used_billing :
    billing.problems = [] ∧ billing.Keyed ∧ customerOrders ∈ billing.relationships ∧
      customerOrders.cardinality = .oneToMany ∧ customerOrders.foreignKey = none ∧
      billing.StandsAt customerOrders shopCustomers 2
        { name := "Orders", typeWord := "navigation" } ∧
      ∃ element, Metadata.fieldElement? (Metadata.document billing.toRegistry.value).value.xml
          "Customers" 2 = some element ∧
        element.attribute? "Partner" = some "Customer" ∧
        billing.GathersBy customerOrders shopCustomers billedOrders "Code" "Customer_ID" := by
  have hproblems : billing.problems = [] := rfl
  have hkeyed : billing.Keyed := ⟨by decide, by decide⟩
  have hmem : customerOrders ∈ billing.relationships := by decide
  have hplace : billing.StandsAt customerOrders shopCustomers 2
      { name := "Orders", typeWord := "navigation" } := ⟨rfl, rfl, rfl, rfl⟩
  obtain ⟨element, helement, -, hshown, hused⟩ := partner_shown_used hproblems hkeyed hmem hplace
  have hcustomer : element.attribute? "Partner" = some "Customer" := hshown
  obtain ⟨partner, target, foreignKey, key, hpartner, htarget, -, -, -, hkey, hgathers⟩ :=
    hused rfl rfl
  obtain rfl : "Customer" = partner := Option.some.inj (hcustomer.symm.trans hpartner)
  obtain rfl : billedOrders = target := Option.some.inj htarget
  obtain rfl := Option.some.inj hkey
  exact ⟨hproblems, hkeyed, hmem, rfl, rfl, hplace, element, helement, hcustomer, hgathers⟩

end OData.Definition
