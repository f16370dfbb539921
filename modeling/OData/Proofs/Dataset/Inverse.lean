/-
The two directions of a relationship.

A relationship to one and a relationship to many that go back and forth between two sets by the same
foreign key are resolved in different ways: one looks a record up by its key, the other gathers the
records that refer to it.  They agree all the same, also where keys are repeated, missing or of
different kinds, since both compare the same texts.

* `Record.expansion?` — what stands under the expansion key of a relationship;
* `Definition.expansion?_record_eq_some_iff` — it is what the relationship declares;
* `Definition.keyText?_eq_of_introspect_eq` — records that look the same have the same keys;
* `Definition.mem_expansion?_iff` — **the two directions agree**.
-/

import OData.Proofs.Dataset.Join

set_option relaxedAutoImplicit false
set_option autoImplicit false

namespace OData

open Query

/-- What stands under the expansion key of a relationship once a record is expanded by an item. -/
def Record.expansion? (registry : Registry) (record : Record) (item : ExpandItem) : Option Value :=
  (record.expanded registry [item]).value.get?
    (expansionKey registry (record.introspect [item.name]) item.name)

theorem FieldList.get?_withExpansion (registry : Registry) {record : FieldList}
    (hd : record.fields.Distinct) (relationship : String) (value : Option Value) :
    (record.withExpansion registry relationship value).get?
        (expansionKey registry record relationship)
      = value.or (record.get? (expansionKey registry record relationship)) := by
  cases value with
  | none => rfl
  | some value => rw [withExpansion, get?_append hd, if_pos rfl, Option.some_or]

namespace Definition

variable {definition : Definition}

/-- Nothing is expanded in a declared record from the start. -/
theorem isExpanded_introspect_record {name : String} {set : SetDefinition} {members : Ordered Json}
    {asked : List String} {key : String} {value : Value}
    (h : ((definition.record name set members).introspect asked).get? key = some value) :
    value.isExpanded = false := by
  rw [FieldList.get?, Record.fields_introspect] at h
  obtain ⟨field, -, heq⟩ := List.mem_map.1 (Ordered.mem_of_mem_ofList (Ordered.mem_of_get? h))
  obtain ⟨-, rfl⟩ := Prod.mk.inj heq
  rw [record, SeedRecord.value?_toRecord]
  cases (definition.seed name set members).get? field.name <;> rfl

/-- Under the expansion key stands what the relationship declares, or else what introspection put
there. -/
theorem expansion?_record (h : definition.IsValid) (hk : definition.Keyed)
    {r : RelationshipDefinition} {source target : SetDefinition} {key : String}
    (hr : definition.IsJoin r source target key) {members : Ordered Json}
    (hmembers : members ∈ source.records) (content : String) :
    (definition.record r.source source members).expansion? definition.toRegistry.value
        ⟨r.name, content⟩
      = ((definition.joined? r key source target members).map
          (·.answer definition.toRegistry.value (.parseNested content))).or
            (((definition.record r.source source members).introspect [r.name]).get?
              (expansionKey definition.toRegistry.value
                ((definition.record r.source source members).introspect [r.name]) r.name)) := by
  rw [Record.expansion?, expanded_record h hk hr hmembers,
    FieldList.get?_withExpansion _ (Record.distinct_introspect _ _)]

/-- An expanded value stands under the expansion key if it is what the relationship declares. -/
theorem expansion?_record_eq_some_iff (h : definition.IsValid) (hk : definition.Keyed)
    {r : RelationshipDefinition} {source target : SetDefinition} {key : String}
    (hr : definition.IsJoin r source target key) {members : Ordered Json}
    (hmembers : members ∈ source.records) (content : String) {value : Value}
    (hvalue : value.isExpanded = true) :
    (definition.record r.source source members).expansion? definition.toRegistry.value
        ⟨r.name, content⟩ = some value ↔
      (definition.joined? r key source target members).map
        (·.answer definition.toRegistry.value (.parseNested content)) = some value := by
  rw [expansion?_record h hk hr hmembers]
  cases hjoin : definition.joined? r key source target members with
  | some related => rw [Option.map_some, Option.some_or]
  | none =>
      rw [Option.map_none, Option.none_or]
      constructor
      · intro hget
        rw [isExpanded_introspect_record hget] at hvalue
        cases hvalue
      · nofun

/-- Records that look the same have the same texts in the fields that are always written. -/
theorem keyText?_eq_of_introspect_eq {name : String} {set : SetDefinition}
    {members members' : Ordered Json} {field : FieldDefinition} (hset : set.IsValid definition name)
    (hwire : set.wireNames.Nodup) (hd : members.Distinct) (hd' : members'.Distinct)
    (hfield : field ∈ set.fields) (hplain : field.isNavigation = false)
    (hshown : set.isExpandOnly field.name = false) {asked : List String}
    (heq : (definition.record name set members).introspect asked
      = (definition.record name set members').introspect asked) :
    keyText? members field.name = keyText? members' field.name := by
  rw [← key?_introspect_record hset hwire hd hfield hplain hshown asked, heq,
    key?_introspect_record hset hwire hd' hfield hplain hshown asked]

/-! ### Plain expansions -/

/-- A record is answered by its field list if nothing more is asked for. -/
theorem value_answer_parseNested_empty (registry : Registry) (record : Record) :
    (record.answer registry (.parseNested "")).value = record.introspect [] := by
  have hempty : Options.parseNested "" = {} := by rfl
  rw [hempty, Record.value_answer_empty]

theorem answer_one_parseNested_empty (registry : Registry) (record : Record) :
    (Related.one record).answer registry (.parseNested "") = .nested (record.introspect []) :=
  congrArg Value.nested (value_answer_parseNested_empty registry record)

theorem answer_many_parseNested_empty (registry : Registry) (records : List Record) :
    (Related.many records).answer registry (.parseNested "")
      = .nestedList (records.map (·.introspect [])) := by
  have hall : window records (Options.parseNested "").skip (Options.parseNested "").top = records :=
    rfl
  rw [Related.answer, answerAll, hall, Journal.value_traverse]
  simp only [value_answer_parseNested_empty]

/-! ### Both directions -/

section

variable (h : definition.IsValid) (hk : definition.Keyed) {r s : RelationshipDefinition}
  {source target : SetDefinition} {key : String} (hr : definition.IsJoin r source target key)
  (hs : definition.IsJoin s target source key) (hto : r.target = s.source)
  (hback : s.target = r.source) (hone : r.cardinality = .oneToOne)
  (hmany : s.cardinality = .oneToMany) {a b : Ordered Json} (ha : a ∈ source.records)
  (hb : b ∈ target.records)

include h hk hr hs hback hone hmany ha hb in
/-- A record is among those that refer to another if its foreign key has the text of the other's
key. -/
theorem mem_many_iff :
    (∃ records, (definition.record s.source target b).expansion? definition.toRegistry.value
          ⟨s.name, ""⟩ = some (.nestedList records) ∧
        (definition.record r.source source a).introspect [] ∈ records) ↔
      ∃ text, keyText? a key = some text ∧ keyText? b target.keyName = some text := by
  obtain ⟨field, hfield, hname, hplain⟩ := hr.exists_localField h
  have hat : localName r key source = key := by simp only [localName, hone]
  -- A field list tells the text of the foreign key, so that another record cannot stand for `a`.
  have hsame : ∀ other ∈ source.records, (definition.record r.source source other).introspect []
      = (definition.record r.source source a).introspect [] →
        keyText? other key = keyText? a key := by
    intro other hother heq
    rw [← hat, ← hname]
    exact keyText?_eq_of_introspect_eq (h.set hr.source_eq) hr.wireNames
      (hk.distinct_record hr.source_eq hother) (hk.distinct_record hr.source_eq ha) hfield hplain
      (hname ▸ hr.shown) heq
  have hvalue := fun records => @expansion?_record_eq_some_iff definition h hk s target source key hs
    b hb "" (.nestedList records) rfl
  simp only [hvalue, joined?, hmany]
  cases keyText? b target.keyName with
  | none => simp
  | some text =>
      rw [Option.map_some, Option.map_some, answer_many_parseNested_empty, List.map_map, hback]
      constructor
      · rintro ⟨records, heq, hmem⟩
        obtain rfl := Value.nestedList.inj (Option.some.inj heq)
        obtain ⟨other, hother, hlook⟩ := List.mem_map.1 hmem
        obtain ⟨hother, htext⟩ := List.mem_filter.1 hother
        exact ⟨text, by rw [← hsame other hother hlook]; simpa using htext, rfl⟩
      · rintro ⟨text', htext, heq⟩
        obtain rfl := Option.some.inj heq
        refine ⟨_, rfl, List.mem_map.2 ⟨a, List.mem_filter.2 ⟨ha, ?_⟩, rfl⟩⟩
        simpa using htext

include h hk hr hs hto hone hmany ha hb in
/-- A record leads to one with the key of another if its foreign key has the text of that key. -/
theorem exists_one_iff :
    (∃ other ∈ target.records, keyText? other target.keyName = keyText? b target.keyName ∧
        (definition.record r.source source a).expansion? definition.toRegistry.value ⟨r.name, ""⟩
          = some (.nested ((definition.record s.source target other).introspect []))) ↔
      ∃ text, keyText? a key = some text ∧ keyText? b target.keyName = some text := by
  obtain ⟨field, hfield, hname, hplain⟩ := hs.exists_localField h
  have hat : localName s key target = target.keyName := by simp only [localName, hmany]
  -- A field list tells the text of the key, so that it is clear which record it stands for.
  have hsame : ∀ found ∈ target.records, ∀ other ∈ target.records,
      (definition.record s.source target found).introspect []
        = (definition.record s.source target other).introspect [] →
        keyText? found target.keyName = keyText? other target.keyName := by
    intro found hfound other hother heq
    rw [← hat, ← hname]
    exact keyText?_eq_of_introspect_eq (h.set hs.source_eq) hs.wireNames
      (hk.distinct_record hs.source_eq hfound) (hk.distinct_record hs.source_eq hother) hfield hplain
      (hname ▸ hs.shown) heq
  have hvalue := fun related => @expansion?_record_eq_some_iff definition h hk r source target key hr
    a ha "" (.nested related) rfl
  simp only [hvalue, joined?, hone]
  cases keyText? a key with
  | none => simp
  | some text =>
      rw [Option.bind_some]
      constructor
      · rintro ⟨other, hother, htext, hfound⟩
        rw [Option.map_map, Option.map_eq_some_iff] at hfound
        obtain ⟨found, hfind, heq⟩ := hfound
        rw [Function.comp_apply, answer_one_parseNested_empty, hto] at heq
        have hmem := List.mem_of_find?_eq_some hfind
        have hkey : keyText? found target.keyName = some text := by simpa using List.find?_some hfind
        rw [hsame found hmem other hother (Value.nested.inj heq), htext] at hkey
        exact ⟨text, rfl, hkey⟩
      · rintro ⟨text', heq, htext⟩
        obtain rfl := Option.some.inj heq
        -- keys may be repeated: the first record with this one is found, and it need not be `b`
        obtain ⟨found, hfind⟩ : ∃ found, (target.records.find? fun other =>
            keyText? other target.keyName == some text) = some found := by
          rw [← Option.isSome_iff_exists, List.find?_isSome]
          exact ⟨b, hb, by simpa using htext⟩
        have hkey : keyText? found target.keyName = some text := by simpa using List.find?_some hfind
        refine ⟨found, List.mem_of_find?_eq_some hfind, hkey.trans htext.symm, ?_⟩
        rw [hfind, Option.map_some, Option.map_some, answer_one_parseNested_empty, hto]

end

/-- **The two directions of a relationship agree.**  A record `a` is among those that refer to `b`
exactly if it refers to a record with the key of `b`. -/
theorem mem_expansion?_iff (h : definition.problems = []) (hk : definition.Keyed)
    {r s : RelationshipDefinition} (hr : r ∈ definition.relationships)
    (hs : s ∈ definition.relationships) (hto : r.target = s.source) (hback : s.target = r.source)
    (hone : r.cardinality = .oneToOne) (hmany : s.cardinality = .oneToMany) {key : String}
    (hrkey : definition.foreignKey? r = some key) (hskey : definition.foreignKey? s = some key)
    {source target : SetDefinition} (hsource : definition.set? r.source = some source)
    (htarget : definition.set? s.source = some target)
    (hexpand : source.capabilities.expand = true) (hexpand' : target.capabilities.expand = true)
    (hwire : source.wireNames.Nodup) (hwire' : target.wireNames.Nodup)
    (hlocal : source.isExpandOnly key = false)
    (hlocal' : target.isExpandOnly target.keyName = false)
    {a b : Ordered Json} (ha : a ∈ source.records) (hb : b ∈ target.records) :
    (∃ records, (definition.record s.source target b).expansion? definition.toRegistry.value
          ⟨s.name, ""⟩ = some (.nestedList records) ∧
        ((definition.record r.source source a).answer definition.toRegistry.value
          (.parseNested "")).value ∈ records) ↔
      ∃ other ∈ target.records, keyText? other target.keyName = keyText? b target.keyName ∧
        (definition.record r.source source a).expansion? definition.toRegistry.value ⟨r.name, ""⟩
          = some (.nested ((definition.record s.source target other).answer
              definition.toRegistry.value (.parseNested "")).value) := by
  have hvalid := definition.problems_eq_nil_iff.1 h
  have hrjoin : definition.IsJoin r source target key :=
    ⟨hr, hsource, hto ▸ htarget, hexpand, hwire, hrkey, by simpa only [localName, hone]⟩
  have hsjoin : definition.IsJoin s target source key :=
    ⟨hs, htarget, hback ▸ hsource, hexpand', hwire', hskey, by simpa only [localName, hmany]⟩
  simp only [value_answer_parseNested_empty]
  rw [mem_many_iff hvalid hk hrjoin hsjoin hback hone hmany ha hb,
    exists_one_iff hvalid hk hrjoin hsjoin hto hone hmany ha hb]

theorem mem_expansion?_shop :
    let registry := shop.toRegistry.value
    let order := shop.record "Orders" shopOrders shopOrder
    let vacant := shop.record "Orders" shopOrders shopVacantOrder
    let customer := shop.record "Customers" shopCustomers shopCustomer
    (shop.problems = [] ∧ shop.Keyed ∧ shopOrder ∈ shopOrders.records ∧
      shopVacantOrder ∈ shopOrders.records ∧ shopCustomer ∈ shopCustomers.records) ∧
    (order.expansion? registry ⟨"Customer", ""⟩
        = some (.nested (.mk (some "Customers")
            [("Code", .scalar (.int 7)), ("Name", .scalar (.string "Ada"))])) ∧
      ∃ records, customer.expansion? registry ⟨"Orders", ""⟩ = some (.nestedList records) ∧
        .mk (some "Orders") [("ID", .scalar (.int 1)), ("Buyer", .scalar (.string "7"))]
          ∈ records) ∧
    vacant.expansion? registry ⟨"Customer", ""⟩ = some .absent ∧
      ∀ records, customer.expansion? registry ⟨"Orders", ""⟩ = some (.nestedList records) →
        .mk (some "Orders") [("ID", .scalar (.int 2)), ("Buyer", .scalar .null)] ∉ records := by
  intro registry order vacant customer
  have horder : shopOrder ∈ shopOrders.records := by simp [shopOrders]
  have hvacant : shopVacantOrder ∈ shopOrders.records := by simp [shopOrders]
  have hcustomer : shopCustomer ∈ shopCustomers.records := by simp [shopCustomers]
  have hiff := fun members hmembers => @mem_expansion?_iff shop problems_shop keyed_shop orderCustomer
    customerOrders (by decide) (by decide) rfl rfl rfl rfl "Customer_ID" rfl rfl shopOrders
    shopCustomers rfl rfl rfl rfl (by decide) (by decide) rfl rfl members shopCustomer hmembers
    hcustomer
  have hjoin : shop.IsJoin orderCustomer shopOrders shopCustomers "Customer_ID" :=
    ⟨by decide, rfl, rfl, rfl, by decide, rfl, rfl⟩
  have hexpansion := fun members hmembers => @expansion?_record shop
    (shop.problems_eq_nil_iff.1 problems_shop) keyed_shop orderCustomer shopOrders shopCustomers
    "Customer_ID" hjoin members hmembers ""
  have hfound : order.expansion? registry ⟨"Customer", ""⟩ = some (.nested (.mk (some "Customers")
      [("Code", .scalar (.int 7)), ("Name", .scalar (.string "Ada"))])) :=
    hexpansion shopOrder horder
  have habsent : vacant.expansion? registry ⟨"Customer", ""⟩ = some .absent :=
    hexpansion shopVacantOrder hvacant
  refine ⟨⟨problems_shop, keyed_shop, horder, hvacant, hcustomer⟩,
    ⟨hfound, (hiff shopOrder horder).2 ⟨shopCustomer, hcustomer, rfl, hfound⟩⟩, habsent, ?_⟩
  intro records hrecords hmem
  obtain ⟨other, -, -, hfound⟩ := (hiff shopVacantOrder hvacant).1 ⟨records, hrecords, hmem⟩
  cases habsent.symm.trans hfound

end Definition

end OData
