/-
Referential constraints and the fields that relationships go by.

The document and the links find the foreign key of a relationship on their own.  A link takes the
explicit foreign key if there is one; the document knows of no explicit foreign keys, and goes by
the convention alone, under which the field is called like the relationship with `_ID` behind it.
So a constraint tells how a relationship is resolved wherever the convention is kept.  The key that
it refers to is always the one that the foreign key is compared with.

* `Definition.foreignKey?_of_conventional` — where the convention is kept;
* `Definition.constraint_declaredNavigation` — what the document makes of the convention;
* `Definition.constraint_join` — **a conventional constraint tells the join**.
-/

import OData.Proofs.Metadata.Declared

set_option relaxedAutoImplicit false
set_option autoImplicit false

namespace OData.Definition

variable {definition : Definition} {r : RelationshipDefinition} {source target : SetDefinition}

/-- Unless another foreign key is declared, a relationship to one record keeps the convention. -/
theorem foreignKey?_of_conventional (hcard : r.cardinality = .oneToOne)
    (h : ∀ name ∈ r.foreignKey, name = r.name ++ "_ID") :
    definition.foreignKey? r = some (r.name ++ "_ID") := by
  rw [foreignKey?, hcard]
  cases hkey : r.foreignKey with
  | none => rfl
  | some explicit => exact congrArg some (h explicit hkey)

/-! ### What the document says -/

/-- There is a constraint exactly for a declared field of the conventional name. -/
theorem constraint_declaredNavigation (hnames : (source.fields.map (·.name)).Nodup)
    (field : FieldDefinition) :
    (∀ conventional ∈ source.fields, conventional.name = r.name ++ "_ID" →
        (definition.declaredNavigation r source target field).constraint
          = some (conventional.toField.wireName, target.keyWireName)) ∧
      ((∀ other ∈ source.fields, other.name ≠ r.name ++ "_ID") →
        (definition.declaredNavigation r source target field).constraint = none) := by
  constructor
  · intro conventional hmem hname
    rw [declaredNavigation, ← hname, source.field?_of_mem hnames hmem]
    rfl
  · intro hnone
    have hfind : source.field? (r.name ++ "_ID") = none :=
      List.find?_eq_none.2 fun other hother => by simpa using hnone other hother
    rw [declaredNavigation, hfind]
    rfl

/-- **A conventional constraint tells the join.**  A relationship to one record is resolved by a
declared field of its source, which is compared with the first key field of its target.  Its
navigation property has a constraint for a plain field of the conventional name, which refers to that
key, and none if no field is called so.  Unless another foreign key is declared, the constraint is
there and its property is the field that is compared.

The convention is about plain fields, and this speaks of no others: a navigation field of that name
holds no key, and what is written for it is nothing to rely on. -/
theorem constraint_join (h : definition.problems = []) (hk : definition.Keyed)
    (hr : r ∈ definition.relationships) (hcard : r.cardinality = .oneToOne) {place : Nat}
    {field : FieldDefinition} (hplace : definition.StandsAt r source place field) :
    ∃ target foreignKey key navigation, definition.set? r.target = some target ∧
      foreignKey ∈ source.fields ∧ definition.foreignKey? r = some foreignKey.name ∧
      target.fields.find? (·.isKey) = some key ∧
      definition.ResolvesBy r source target foreignKey.toField.wireName key.name ∧
      Metadata.memberAt? (Metadata.document definition.toRegistry.value).value.xml r.source place
        = some (.navigation navigation) ∧
      (∀ conventional ∈ source.fields, conventional.name = r.name ++ "_ID" →
        conventional.isNavigation = false →
          navigation.constraint
            = some (conventional.toField.wireName, key.toField.wireName)) ∧
      ((∀ other ∈ source.fields, other.name ≠ r.name ++ "_ID") → navigation.constraint = none) ∧
      ((∀ name ∈ r.foreignKey, name = r.name ++ "_ID") →
        navigation.constraint
          = some (foreignKey.toField.wireName, key.toField.wireName)) := by
  have hvalid := definition.problems_eq_nil_iff.1 h
  obtain ⟨target, htarget⟩ := (hvalid.relationships r hr).target
  obtain ⟨name, -, hforeign, -⟩ := (hvalid.relationships r hr).foreignKey
  obtain ⟨foreignKey, hfield, hname, -⟩ := hvalid.exists_localField hr hplace.source_eq hforeign
  obtain ⟨key, hkey, hkeyName, hkeyWire, -⟩ := (hvalid.set htarget).exists_key
  simp only [localName, hcard] at hname
  subst hname
  obtain ⟨hsome, hnone⟩ := @constraint_declaredNavigation definition r source target
    (hvalid.set hplace.source_eq).names field
  refine ⟨target, foreignKey, key, definition.declaredNavigation r source target field, htarget,
    hfield, hforeign, hkey, ?_, hplace.memberAt?_document hvalid hk.sets hr htarget, ?_, hnone, ?_⟩
  · rw [hkeyName]
    exact resolvesBy hvalid hk hr hcard hplace.source_eq htarget hfield hforeign
  · intro conventional hmem hname _
    rw [hkeyWire]
    exact hsome conventional hmem hname
  · intro hexplicit
    rw [hkeyWire]
    have hconventional := @foreignKey?_of_conventional definition r hcard hexplicit
    exact hsome foreignKey hfield (Option.some.inj (hforeign.symm.trans hconventional))

theorem constraint_join_shop :
    shop.problems = [] ∧ shop.Keyed ∧ orderCustomer ∈ shop.relationships ∧
      orderCustomer.cardinality = .oneToOne ∧
      shop.StandsAt orderCustomer shopOrders 2 { name := "Customer", typeWord := "navigation" } ∧
      shop.ResolvesBy orderCustomer shopOrders shopCustomers "Buyer" "Code" ∧
      ∃ navigation, Metadata.memberAt? (Metadata.document shop.toRegistry.value).value.xml "Orders" 2
          = some (.navigation navigation) ∧
        navigation.constraint = some ("Buyer", "Code") := by
  have hmem : orderCustomer ∈ shop.relationships := by decide
  have hplace : shop.StandsAt orderCustomer shopOrders 2
      { name := "Customer", typeWord := "navigation" } := ⟨rfl, rfl, rfl, rfl⟩
  obtain ⟨target, foreignKey, key, navigation, htarget, hfield, hforeign, hkey, hjoin, hshown, -, -,
    hconstraint⟩ := constraint_join problems_shop keyed_shop hmem rfl hplace
  obtain rfl : shopCustomers = target := Option.some.inj htarget
  obtain rfl := Option.some.inj hkey
  -- the foreign key is known by its name
  have hfound := SetDefinition.field?_of_mem (by decide) hfield
  rw [← Option.some.inj hforeign] at hfound
  obtain rfl := Option.some.inj hfound
  exact ⟨problems_shop, keyed_shop, hmem, rfl, hplace, hjoin, navigation, hshown, hconstraint nofun⟩

/-! ### Sales -/

/-- Orders with a buyer, a seller and a customer of record. -/
def soldOrders : SetDefinition where
  fields :=
    [{ name := "ID", typeWord := "int", isKey := true }, { name := "Customer_ID" },
      { name := "Buyer" }, { name := "Seller" }, { name := "Customer", typeWord := "navigation" },
      { name := "Vendor", typeWord := "navigation" }]

/-- The customer who bought, by an explicit foreign key. -/
def orderBuyer : RelationshipDefinition := { orderCustomer with foreignKey := some "Buyer" }

/-- The customer who sold, by an explicit foreign key. -/
def orderVendor : RelationshipDefinition :=
  { orderCustomer with name := "Vendor", foreignKey := some "Seller" }

/-- Two relationships from orders to customers that do not keep the convention. -/
def sales : Definition where
  version := "1.0"
  entitySets := [("Orders", soldOrders), ("Customers", shopCustomers)]
  relationships := [orderBuyer, orderVendor, customerOrders]

/-- Explicit foreign keys are not told: the constraint for the one who bought names the customer of
record, and the one who sold has none, although both foreign keys are declared. -/
theorem constraint_ignores_explicit :
    let xml := (Metadata.document sales.toRegistry.value).value.xml
    sales.problems = [] ∧ sales.Keyed ∧ orderBuyer ∈ sales.relationships ∧
      orderVendor ∈ sales.relationships ∧
      sales.ResolvesBy orderBuyer soldOrders shopCustomers "Buyer" "Code" ∧
      ¬ sales.ResolvesBy orderBuyer soldOrders shopCustomers "Customer_ID" "Code" ∧
      (∃ navigation, Metadata.memberAt? xml "Orders" 4 = some (.navigation navigation) ∧
        navigation.constraint = some ("Customer_ID", "Code")) ∧
      sales.ResolvesBy orderVendor soldOrders shopCustomers "Seller" "Code" ∧
      ∃ navigation, Metadata.memberAt? xml "Orders" 5 = some (.navigation navigation) ∧
        navigation.constraint = none := by
  have hproblems : sales.problems = [] := rfl
  have hvalid := sales.problems_eq_nil_iff.1 hproblems
  have hkeyed : sales.Keyed := ⟨by decide, by decide⟩
  have hbuyer : orderBuyer ∈ sales.relationships := by decide
  have hvendor : orderVendor ∈ sales.relationships := by decide
  have hboughtBy : sales.ResolvesBy orderBuyer soldOrders shopCustomers "Buyer" "Code" :=
    @resolvesBy sales orderBuyer soldOrders shopCustomers hvalid hkeyed hbuyer rfl rfl rfl
      { name := "Buyer" } (by decide) rfl
  have hsoldBy : sales.ResolvesBy orderVendor soldOrders shopCustomers "Seller" "Code" :=
    @resolvesBy sales orderVendor soldOrders shopCustomers hvalid hkeyed hvendor rfl rfl rfl
      { name := "Seller" } (by decide) rfl
  have hbuyerPlace : sales.StandsAt orderBuyer soldOrders 4
      { name := "Customer", typeWord := "navigation" } := ⟨rfl, rfl, rfl, rfl⟩
  have hvendorPlace : sales.StandsAt orderVendor soldOrders 5
      { name := "Vendor", typeWord := "navigation" } := ⟨rfl, rfl, rfl, rfl⟩
  refine ⟨hproblems, hkeyed, hbuyer, hvendor, hboughtBy, fun hrecord => ?_,
    ⟨_, hbuyerPlace.memberAt?_document hvalid hkeyed.sets hbuyer rfl, rfl⟩, hsoldBy,
    ⟨_, hvendorPlace.memberAt?_document hvalid hkeyed.sets hvendor rfl, rfl⟩⟩
  -- a customer of record leads nowhere if nobody bought
  have hsame := (hboughtBy (.mk none [("Customer_ID", .scalar (.string "7"))]) "").symm.trans
    (hrecord _ "")
  exact Option.some_ne_none _ hsame.symm

end OData.Definition
