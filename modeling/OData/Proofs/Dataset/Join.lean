/-
Expansion by links is the join that a definition declares.

A link goes by wire names on the side of the record at hand and by declared names on the side of the
target, and it is looked up by the name of a relationship in a table made for each set.  In a valid
definition all of these names lead to the declared fields, so that what is expanded can be told from
the declared records alone, by comparing the texts of their members.

* `Definition.get?_linksOf` — the link of each relationship;
* `Definition.resolvesBy`, `Definition.gathersBy` — what the links compare;
* `Definition.joined?` — the records that a relationship declares for a record of its source;
* `Definition.IsJoin` — relationships whose records can be told from the record at hand;
* `Definition.capability_record` — **the capability of a set resolves its relationships by joining**;
* `Definition.expanded_relationship` — what expanding a single relationship gives.
-/

import OData.Proofs.Dataset.Seeds
import OData.Proofs.Request.Answer

set_option relaxedAutoImplicit false
set_option autoImplicit false

namespace OData.Definition

open Query

variable {definition : Definition}

/-! ### Links -/

/-- The relationships from a set have different names. -/
theorem IsValid.nodup_relationshipsFrom (h : definition.IsValid) (set : String) :
    ((definition.relationshipsFrom set).map (·.name)).Nodup := by
  have hpairs : ((definition.relationshipsFrom set).map fun r => (r.source, r.name))
      = ((definition.relationshipsFrom set).map (·.name)).map fun name => (set, name) := by
    rw [List.map_map]
    refine List.map_congr_left fun r hr => ?_
    have hsource : r.source = set := by simpa using (List.mem_filter.1 hr).2
    rw [Function.comp_apply, hsource]
  have hnodup : ((definition.relationshipsFrom set).map fun r => (r.source, r.name)).Nodup :=
    h.names.sublist (List.filter_sublist.map _)
  rw [hpairs] at hnodup
  exact hnodup.of_map _

/-- Each relationship from a set has its own link. -/
theorem IsValid.get?_linksOf (h : definition.IsValid) {r : RelationshipDefinition}
    (hr : r ∈ definition.relationships) {type : EntityType} (htype : type.name = r.source) :
    Ordered.get? r.name (linksOf definition type) = Link.ofRelationship? definition type r := by
  have hnames : Ordered.Distinct ((definition.relationshipsFrom type.name).map fun r => (r.name, r)) := by
    rw [Ordered.Distinct, Ordered.keys, List.map_map]
    exact h.nodup_relationshipsFrom type.name
  have hlist : linkList definition type
      = ((definition.relationshipsFrom type.name).map fun r => (r.name, r)).filterMap fun e =>
          (Link.ofRelationship? definition type e.2).map fun link => (e.1, link) := by
    rw [List.filterMap_map]
    rfl
  have hmem : r ∈ definition.relationshipsFrom type.name :=
    List.mem_filter.2 ⟨hr, by simp [htype]⟩
  have hsub := Ordered.keys_filterMap_sublist (fun _ => Link.ofRelationship? definition type)
    ((definition.relationshipsFrom type.name).map fun r => (r.name, r))
  rw [linksOf, hlist, Ordered.ofList_eq_self (hnames.sublist hsub),
    Ordered.get?_filterMap hnames fun _ => Link.ofRelationship? definition type,
    Ordered.get?_of_mem hnames (List.mem_map_of_mem hmem), Option.bind_some]

/-- Whatever has a link is a relationship of its set. -/
theorem exists_relationship_of_get?_linksOf {type : EntityType} {name : String} {link : Link}
    (h : Ordered.get? name (linksOf definition type) = some link) :
    ∃ r ∈ definition.relationshipsFrom type.name, r.name = name ∧
      Link.ofRelationship? definition type r = some link := by
  obtain ⟨r, hr, hentry⟩ := List.mem_filterMap.1 (Ordered.mem_of_mem_ofList (Ordered.mem_of_get? h))
  obtain ⟨_, hlink, hpair⟩ := Option.map_eq_some_iff.1 hentry
  obtain ⟨rfl, rfl⟩ := Prod.mk.inj hpair
  exact ⟨r, hr, rfl, hlink⟩

/-! ### What a link compares -/

section

variable {r : RelationshipDefinition} {source target : SetDefinition}

/-- A relationship is resolved by a property: from any field list its link leads to the first record
of the target whose key has the text of that property. -/
def ResolvesBy (definition : Definition) (r : RelationshipDefinition)
    (source target : SetDefinition) (property key : String) : Prop :=
  ∀ (fields : FieldList) (text : String),
    (Dataset.ofDefinition definition).capability
        (linksOf definition (definition.typeOf r.source source)) fields r.name text
      = (((fields.get? property).bind Value.key?).bind fun value =>
          target.records.find? fun other => keyText? other key == some value).map
            fun other => .one (definition.record r.target target other)

/-- Records are gathered by a field: from any field list the link of a relationship leads to those
records of the target whose member of that name has the text of a property at hand. -/
def GathersBy (definition : Definition) (r : RelationshipDefinition)
    (source target : SetDefinition) (property field : String) : Prop :=
  ∀ (fields : FieldList) (text : String),
    (Dataset.ofDefinition definition).capability
        (linksOf definition (definition.typeOf r.source source)) fields r.name text
      = ((fields.get? property).bind Value.key?).map fun value =>
          .many ((target.records.filter fun other => keyText? other field == some value).map
            (definition.record r.target target))

/-- A relationship to one record is resolved by the foreign key under its wire name, which is
compared with the key of the target. -/
theorem resolvesBy (h : definition.IsValid) (hk : definition.Keyed)
    (hr : r ∈ definition.relationships) (hcard : r.cardinality = .oneToOne)
    (hsource : definition.set? r.source = some source)
    (htarget : definition.set? r.target = some target) {foreignKey : FieldDefinition}
    (hfield : foreignKey ∈ source.fields)
    (hforeign : definition.foreignKey? r = some foreignKey.name) :
    definition.ResolvesBy r source target foreignKey.toField.wireName target.keyName := by
  intro fields text
  rw [Dataset.capability, h.get?_linksOf hr rfl, Link.ofRelationship?, hforeign, Option.map_some,
    Option.bind_some]
  simp only [hcard, Link.resolve, wireNameOf_typeOf definition (h.set hsource).names hfield]
  cases (fields.get? foreignKey.toField.wireName).bind Value.key? with
  | none => rfl
  | some value =>
      rw [Option.bind_some, Option.bind_some,
        find?_ofDefinition htarget fun _ => hk.distinct_record htarget, Option.map_map]
      rfl

/-- The records of a relationship to many are gathered by its foreign key, which is compared with the
key of the source under its wire name. -/
theorem gathersBy (h : definition.IsValid) (hk : definition.Keyed)
    (hr : r ∈ definition.relationships) (hcard : r.cardinality = .oneToMany)
    (hsource : definition.set? r.source = some source)
    (htarget : definition.set? r.target = some target) {key : FieldDefinition}
    (hfield : key ∈ source.fields) (hname : key.name = source.keyName) {foreignKey : String}
    (hforeign : definition.foreignKey? r = some foreignKey) :
    definition.GathersBy r source target key.toField.wireName foreignKey := by
  intro fields text
  rw [Dataset.capability, h.get?_linksOf hr rfl, Link.ofRelationship?, hforeign, Option.map_some,
    Option.bind_some]
  simp only [hcard, Link.resolve, keyName_typeOf, ← hname,
    wireNameOf_typeOf definition (h.set hsource).names hfield]
  cases (fields.get? key.toField.wireName).bind Value.key? with
  | none => rfl
  | some value =>
      rw [Option.bind_some, Option.map_some,
        filter_records_ofDefinition htarget fun _ => hk.distinct_record htarget, List.map_map]
      rfl

end

/-! ### Values at hand -/

/-- The text of a listed field is that of the declared member. -/
theorem key?_introspect_record {name : String} {set : SetDefinition} {members : Ordered Json}
    {field : FieldDefinition} (hset : set.IsValid definition name) (hwire : set.wireNames.Nodup)
    (hd : members.Distinct) (hfield : field ∈ set.fields) (hplain : field.isNavigation = false)
    (hshown : set.isExpandOnly field.name = false) (asked : List String) :
    (((definition.record name set members).introspect asked).get?
        ((definition.typeOf name set).wireNameOf field.name)).bind Value.key?
      = keyText? members field.name := by
  have hfree : field.toField.expandOnly = none := by
    have hnone : field.expandOnly = none := by
      simpa using List.any_eq_false.1 hshown field hfield
    change field.relationship? = none
    simp [FieldDefinition.relationship?, hnone, hplain]
  have hwritten : Record.isWritten asked field.toField = true :=
    Record.isWritten_iff.2 (by simp [hfree])
  have hnames : ((definition.typeOf name set).fields.map (·.wireName)).Nodup := by
    rw [typeOf, List.map_map]
    exact hwire
  have hmem : field.toField ∈ (definition.typeOf name set).fields := List.mem_map_of_mem hfield
  have hget := @Record.get?_introspect (definition.record name set members) asked field.toField
    hnames hmem hwritten
  rw [wireNameOf_typeOf definition hset.names hfield, hget, Option.bind_some,
    ← keyOf?_seed definition hd name set, SeedRecord.keyOf?, record, SeedRecord.value?_toRecord]
  change Value.key? ((((definition.seed name set members).get? field.name).map .scalar).getD _) = _
  cases (definition.seed name set members).get? field.name <;> rfl

/-! ### The join -/

/-- The declared name of the field at hand that resolves a relationship: its foreign key, or the key
of the set. -/
def localName (r : RelationshipDefinition) (key : String) (source : SetDefinition) : String :=
  match r.cardinality with
  | .oneToOne => key
  | .oneToMany => source.keyName

variable (definition)

/-- The records that a relationship with some foreign key declares for a record of its source. -/
def joined? (r : RelationshipDefinition) (key : String) (source target : SetDefinition)
    (members : Ordered Json) : Option Related :=
  match r.cardinality with
  | .oneToOne =>
    ((keyText? members key).bind fun text =>
      target.records.find? fun other => keyText? other target.keyName == some text).map
        fun other => .one (definition.record r.target target other)
  | .oneToMany =>
    (keyText? members source.keyName).map fun text =>
      .many ((target.records.filter fun other => keyText? other key == some text).map
        (definition.record r.target target))

/-- A relationship whose records can be told from the record at hand: the source has the expand
capability and different wire names, and the field at hand is written whatever is asked for. -/
structure IsJoin (r : RelationshipDefinition) (source target : SetDefinition) (key : String) :
    Prop where
  mem : r ∈ definition.relationships
  source_eq : definition.set? r.source = some source
  target_eq : definition.set? r.target = some target
  expand : source.capabilities.expand = true
  wireNames : source.wireNames.Nodup
  foreignKey : definition.foreignKey? r = some key
  shown : source.isExpandOnly (localName r key source) = false

variable {definition} {r : RelationshipDefinition} {source target : SetDefinition} {key : String}

/-- The field at hand is a plain field of the source. -/
theorem IsValid.exists_localField (h : definition.IsValid) (hr : r ∈ definition.relationships)
    (hsource : definition.set? r.source = some source) (hkey : definition.foreignKey? r = some key) :
    ∃ field ∈ source.fields, field.name = localName r key source ∧ field.isNavigation = false := by
  cases hcard : r.cardinality with
  | oneToOne =>
      obtain ⟨key', owner, hkey', howner, hplain⟩ := (h.relationships r hr).foreignKey
      obtain rfl := Option.some.inj (hkey.symm.trans hkey')
      rw [RelationshipDefinition.keyOwner, hcard] at howner
      obtain rfl := Option.some.inj (hsource.symm.trans howner)
      rw [localName, hcard]
      exact source.exists_plainField hplain
  | oneToMany =>
      rw [localName, hcard]
      obtain ⟨field, hfield, hname, -, hplain⟩ := (h.set hsource).exists_keyField
      exact ⟨field, hfield, hname, hplain⟩

theorem IsJoin.exists_localField (hr : definition.IsJoin r source target key)
    (h : definition.IsValid) :
    ∃ field ∈ source.fields, field.name = localName r key source ∧ field.isNavigation = false :=
  h.exists_localField hr.mem hr.source_eq hr.foreignKey

/-- **The capability of a set resolves its relationships by joining** the declared records. -/
theorem capability_record (h : definition.IsValid) (hk : definition.Keyed)
    (hr : definition.IsJoin r source target key) {members : Ordered Json}
    (hmembers : members ∈ source.records) (asked : List String) (text : String) :
    definition.toRegistry.value.capability r.source
        ((definition.record r.source source members).introspect asked) r.name text
      = definition.joined? r key source target members := by
  have hset := h.set hr.source_eq
  have hd := hk.distinct_record hr.source_eq hmembers
  obtain ⟨field, hfield, hname, hplain⟩ := hr.exists_localField h
  -- the capability is handed a field list, and finds the field at hand by its wire name there
  have htext := key?_introspect_record hset hr.wireNames hd hfield hplain (hname ▸ hr.shown) asked
  rw [wireNameOf_typeOf definition hset.names hfield, hname] at htext
  rw [capability_toRegistry definition hk.sets hr.source_eq, if_pos hr.expand, joined?]
  -- to one the foreign key is at hand and the key is looked for; to many it is the other way round
  cases hcard : r.cardinality with
  | oneToOne =>
      simp only [localName, hcard] at hname htext
      have hforeign : definition.foreignKey? r = some field.name := hname ▸ hr.foreignKey
      rw [resolvesBy h hk hr.mem hcard hr.source_eq hr.target_eq hfield hforeign, htext]
  | oneToMany =>
      simp only [localName, hcard] at hname htext
      rw [gathersBy h hk hr.mem hcard hr.source_eq hr.target_eq hfield hname hr.foreignKey, htext]

/-! ### What is expanded -/

theorem window_map {α β : Type} (f : α → β) (items : List α) (skip : Nat) (top : Option Nat) :
    window (items.map f) skip top = (window items skip top).map f := by
  cases top <;> simp [List.map_drop, List.map_take]

theorem expanded_record (h : definition.IsValid) (hk : definition.Keyed)
    (hr : definition.IsJoin r source target key) {members : Ordered Json}
    (hmembers : members ∈ source.records) (content : String) :
    ((definition.record r.source source members).expanded definition.toRegistry.value
        [⟨r.name, content⟩]).value
      = ((definition.record r.source source members).introspect [r.name]).withExpansion
          definition.toRegistry.value r.name
          ((definition.joined? r key source target members).map
            (·.answer definition.toRegistry.value (.parseNested content))) := by
  have hjoin := capability_record h hk hr hmembers [r.name]
    (ExpandItem.nestedOption ⟨r.name, content⟩)
  rw [Record.value_expanded, List.foldl_cons, List.foldl_nil, FieldList.expandItem]
  exact congrArg (fun related : Option Related => FieldList.withExpansion _ _ r.name
    (related.map (·.answer definition.toRegistry.value (.parseNested content)))) hjoin

/-- **What expanding a single relationship gives.**  A relationship to one leads to the first record
of the target whose key has the text of the foreign key; a relationship to many leads to the window
of the records of the target whose foreign key has the text of the key, in their order.  If the
field at hand is missing or null, or no record matches a foreign key, nothing is expanded. -/
theorem expanded_relationship (h : definition.problems = []) (hk : definition.Keyed)
    {r : RelationshipDefinition} (hr : r ∈ definition.relationships) {source target : SetDefinition}
    (hsource : definition.set? r.source = some source)
    (htarget : definition.set? r.target = some target)
    (hexpand : source.capabilities.expand = true) (hwire : source.wireNames.Nodup) {key : String}
    (hkey : definition.foreignKey? r = some key)
    (hlocal : source.isExpandOnly (localName r key source) = false) {members : Ordered Json}
    (hmembers : members ∈ source.records) (content : String) :
    ((definition.record r.source source members).expanded definition.toRegistry.value
        [⟨r.name, content⟩]).value
      = ((definition.record r.source source members).introspect [r.name]).withExpansion
          definition.toRegistry.value r.name
          (match r.cardinality with
          | .oneToOne =>
            ((keyText? members key).bind fun text =>
              target.records.find? fun other => keyText? other target.keyName == some text).map
                fun other => .nested ((definition.record r.target target other).answer
                  definition.toRegistry.value (.parseNested content)).value
          | .oneToMany =>
            (keyText? members source.keyName).map fun text => .nestedList
              ((window (target.records.filter fun other => keyText? other key == some text)
                (Options.parseNested content).skip (Options.parseNested content).top).map
                  fun other => ((definition.record r.target target other).answer
                    definition.toRegistry.value (.parseNested content)).value)) := by
  have hjoin : definition.IsJoin r source target key :=
    ⟨hr, hsource, htarget, hexpand, hwire, hkey, hlocal⟩
  rw [expanded_record (definition.problems_eq_nil_iff.1 h) hk hjoin hmembers, joined?]
  cases hcard : r.cardinality with
  | oneToOne =>
      simp only [Option.map_map]
      rfl
  | oneToMany =>
      simp only [Option.map_map]
      cases keyText? members source.keyName with
      | none => rfl
      | some text =>
          simp only [Option.map_some, Function.comp_apply, Related.answer, answerAll,
            Journal.value_traverse, window_map, List.map_map]
          rfl

/-! ### A shop -/

/-- An order that refers to a customer by text. -/
def shopOrder : Ordered Json := [("ID", .int 1), ("Customer_ID", .string "7")]

/-- An order without a customer. -/
def shopVacantOrder : Ordered Json := [("ID", .int 2), ("Customer_ID", .null)]

/-- Another order of the first customer, by the number itself. -/
def shopReorder : Ordered Json := [("ID", .int 3), ("Customer_ID", .int 7)]

/-- A customer whose key is a number. -/
def shopCustomer : Ordered Json := [("Code", .int 7), ("Name", .string "Ada")]

/-- Orders, one of them without a customer; the reference is shown under another name. -/
def shopOrders : SetDefinition where
  fields :=
    [{ name := "ID", typeWord := "int", isKey := true },
      { name := "Customer_ID", displayName := some "Buyer" },
      { name := "Customer", typeWord := "navigation" }]
  records := [shopOrder, shopVacantOrder, shopReorder]

/-- Customers. -/
def shopCustomers : SetDefinition where
  fields :=
    [{ name := "Code", typeWord := "int", isKey := true }, { name := "Name" },
      { name := "Orders", typeWord := "navigation" }]
  records := [shopCustomer]

/-- The customer of an order, by the conventional foreign key. -/
def orderCustomer : RelationshipDefinition where
  source := "Orders"
  name := "Customer"
  target := "Customers"
  cardinality := .oneToOne

/-- The orders of a customer, by the foreign key of the partner. -/
def customerOrders : RelationshipDefinition where
  source := "Customers"
  name := "Orders"
  target := "Orders"
  cardinality := .oneToMany

/-- Orders and customers with the relationships between them. -/
def shop : Definition where
  version := "1.0"
  entitySets := [("Orders", shopOrders), ("Customers", shopCustomers)]
  relationships := [orderCustomer, customerOrders]

theorem problems_shop : shop.problems = [] := by rfl

theorem keyed_shop : shop.Keyed := ⟨by decide, by decide⟩

theorem expanded_relationship_shop :
    shop.problems = [] ∧ shop.Keyed ∧ orderCustomer ∈ shop.relationships ∧
      customerOrders ∈ shop.relationships ∧ shop.foreignKey? orderCustomer = some "Customer_ID" ∧
      shop.foreignKey? customerOrders = some "Customer_ID" ∧
      ((shop.record "Orders" shopOrders shopOrder).expanded shop.toRegistry.value
          [⟨"Customer", "$select=Name"⟩]).value
        = .mk (some "Orders") [("ID", .scalar (.int 1)), ("Buyer", .scalar (.string "7")),
            ("Customer", .nested (.mk (some "Customers") [("Name", .scalar (.string "Ada"))]))] ∧
      ((shop.record "Customers" shopCustomers shopCustomer).expanded shop.toRegistry.value
          [⟨"Orders", ""⟩]).value
        = .mk (some "Customers") [("Code", .scalar (.int 7)), ("Name", .scalar (.string "Ada")),
            ("Orders", .nestedList
              [.mk (some "Orders") [("ID", .scalar (.int 1)), ("Buyer", .scalar (.string "7"))],
                .mk (some "Orders") [("ID", .scalar (.int 3)), ("Buyer", .scalar (.int 7))]])] ∧
      ((shop.record "Customers" shopCustomers shopCustomer).expanded shop.toRegistry.value
          [⟨"Orders", "$skip=1;$top=1"⟩]).value
        = .mk (some "Customers") [("Code", .scalar (.int 7)), ("Name", .scalar (.string "Ada")),
            ("Orders", .nestedList
              [.mk (some "Orders") [("ID", .scalar (.int 3)), ("Buyer", .scalar (.int 7))]])] :=
  have hcustomer : shopCustomer ∈ shopCustomers.records := by simp [shopCustomers]
  have horders := @expanded_relationship shop problems_shop keyed_shop customerOrders (by decide)
    shopCustomers shopOrders rfl rfl rfl (by decide) "Customer_ID" rfl rfl shopCustomer hcustomer
  ⟨problems_shop, keyed_shop, by decide, by decide, rfl, rfl,
    @expanded_relationship shop problems_shop keyed_shop orderCustomer (by decide) shopOrders
      shopCustomers rfl rfl rfl (by decide) "Customer_ID" rfl rfl shopOrder (by simp [shopOrders])
      "$select=Name",
    horders "", horders "$skip=1;$top=1"⟩

end OData.Definition
