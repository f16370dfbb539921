/-
Records that cannot show in an answer.

A request reads the records of the set that it addresses, and of the sets that relationships lead to
from there.  So the records of a set cannot show in the answer to a request that neither addresses
the set nor names a relationship to it anywhere in its query, however deep the terms stand inside
each other and however the other relationships run in circles; and no record at all shows in the
metadata document.

* `Service.follow_congr` — services that answer a query from the same records follow a route alike;
* `Definition.service` — the service over the seed records of a definition;
* `Definition.handle_eq_of_sameBut` — **unrelated records cannot change an answer**.
-/

import OData.Proofs.Dataset.Complete
import OData.Proofs.Dataset.Unrelated
import OData.Proofs.Metadata.Schema
import OData.Proofs.Service.Outcome

set_option relaxedAutoImplicit false
set_option autoImplicit false

namespace OData

open Query

/-! ### Services with the same records -/

namespace Service

theorem value_readOptions (query : String) : (readOptions query).value = Options.parse query := rfl

section

variable {service other : Service} {names : String → Prop} {set query : String}

theorem handle_congr {path : String}
    (h : ∀ route, Route.ofPath? path = some route →
      service.follow query route = other.follow query route) :
    service.handle path query = other.handle path query := by
  cases hpath : Route.ofPath? path with
  | none => simp only [handle, hpath]
  | some route => simp only [handle, hpath, h route hpath]

variable (hagree : service.registry.AgreeOn names other.registry)
  (hquery : ∀ item, (Options.parse query).HasItem item → names item.name)
  (hfetches : (service.registry.set? set).map EntitySet.fetches
    = (other.registry.set? set).map EntitySet.fetches)

include hagree hquery hfetches

/-- The records of a set are answered alike if the set has the same fetches and the registries agree
on the names in the query. -/
theorem collection_congr : service.collection set query = other.collection set query := by
  simp only [collection, Registry.handler]
  rcases map_eq_map_cases hfetches with ⟨hset, hset'⟩ | ⟨entitySet, entitySet', hset, hset', hsame⟩
  · simp only [hset, hset']
  · have hcollection : entitySet.handler.collection = entitySet'.handler.collection :=
      congrArg Prod.fst hsame
    simp only [hset, hset', hcollection]
    cases entitySet'.handler.collection with
    | none => rfl
    | some records =>
        refine Journal.bind_congr ?_
        rw [value_readOptions, hagree.answerAll_eq hquery]

/-- So is the record of a key. -/
theorem entity_congr (id : String) : service.entity set id query = other.entity set id query := by
  simp only [entity, Registry.handler]
  rcases map_eq_map_cases hfetches with ⟨hset, hset'⟩ | ⟨entitySet, entitySet', hset, hset', hsame⟩
  · simp only [hset, hset']
  · have hbyId : entitySet.handler.byId = entitySet'.handler.byId := congrArg Prod.snd hsame
    simp only [hset, hset', hbyId]
    cases entitySet'.handler.byId with
    | none => rfl
    | some find =>
        cases hfind : find id with
        | none => simp only [hfind]
        | some record =>
            simp only [hfind]
            refine Journal.bind_congr ?_
            rw [value_readOptions, hagree.answer_eq hquery]

/-- A route to the set is followed alike. -/
theorem follow_congr {route : Route} (hroute : route.set? = some set) :
    service.follow query route = other.follow query route := by
  cases route with
  | metadata => cases hroute
  | collection set' =>
      obtain rfl := Option.some.inj hroute
      rw [follow, collection_congr hagree hquery hfetches, follow]
  | entity set' id =>
      obtain rfl := Option.some.inj hroute
      rw [follow, entity_congr hagree hquery hfetches, follow]

end

end Service

/-! ### Services over definitions -/

namespace Definition

/-- The service over the seed records of a definition. -/
def service (definition : Definition) : Service :=
  (Service.ofRegistry definition.toRegistry.value).value

variable {definition other : Definition} {hidden : String}

/-- A document shows no records. -/
theorem SameBut.sameSchema_toRegistry (hsame : definition.SameBut other hidden)
    (h : definition.IsValid) (h' : other.IsValid) (hd : definition.entitySets.Distinct) :
    definition.toRegistry.value.SameSchema other.toRegistry.value where
  schemaName_eq := by
    rw [schemaName_toRegistry, schemaName_toRegistry, hsame.schemaName_eq]
  types_eq := by
    rw [types_toRegistry hd, types_toRegistry (hsame.distinct hd), hsame.types_eq]
  type?_eq := (hsame.agreeOn_toRegistry hd).type?_eq
  relationshipsOf_eq set := by
    rw [relationshipsOf_toRegistry h, relationshipsOf_toRegistry h', hsame.relationshipsFrom_eq]

/-- The other sets have the same fetches. -/
theorem SameBut.fetches_eq (hsame : definition.SameBut other hidden)
    (hd : definition.entitySets.Distinct) {name : String} (hne : name ≠ hidden) :
    (definition.toRegistry.value.set? name).map EntitySet.fetches
      = (other.toRegistry.value.set? name).map EntitySet.fetches := by
  rw [set?_toRegistry definition hd, set?_toRegistry other (hsame.distinct hd), hsame.set?_eq hne,
    Option.map_map, Option.map_map]
  simp only [Function.comp_def, EntitySet.fetches, handlerOf, hsame.records_eq hne,
    hsame.find?_eq hne]

/-- **Unrelated records cannot change an answer.**  Of two definitions that differ in nothing but the
records of one set, both have the same metadata document, and they answer every request alike that
leads to another set and names no relationship to the set in question, at whatever level; the events
on the way are the same, too. -/
theorem handle_eq_of_sameBut (h : definition.problems = []) (h' : other.problems = [])
    (hd : definition.entitySets.Distinct) (hsame : definition.SameBut other hidden)
    (path query : String) :
    (Route.ofPath? path = some .metadata →
        definition.service.handle path query = other.service.handle path query) ∧
      ∀ route set, Route.ofPath? path = some route → route.set? = some set → set ≠ hidden →
        (∀ item, (Options.parse query).HasItem item → ∀ r ∈ definition.relationships,
          r.target = hidden → r.name ≠ item.name) →
        definition.service.handle path query = other.service.handle path query := by
  constructor
  · intro hpath
    have hschema := hsame.sameSchema_toRegistry (definition.problems_eq_nil_iff.1 h)
      (other.problems_eq_nil_iff.1 h') hd
    have hmetadata : definition.service.metadata = other.service.metadata :=
      congrArg Journal.value hschema.document_eq
    refine Service.handle_congr fun route hroute => ?_
    obtain rfl := Option.some.inj (hpath.symm.trans hroute)
    rw [Service.follow, hmetadata, Service.follow]
  · intro route set hpath hset hne hquery
    refine Service.handle_congr fun route' hroute' => ?_
    obtain rfl := Option.some.inj (hpath.symm.trans hroute')
    exact Service.follow_congr (hsame.agreeOn_toRegistry hd) hquery (hsame.fetches_eq hd hne) hset

/-! ### An audited shop -/

/-- Audits of orders. -/
def shopAudits (records : List (Ordered Json)) : SetDefinition where
  fields := [{ name := "ID", typeWord := "int", isKey := true },
    { name := "Order_ID", typeWord := "int" }]
  records

/-- The audits of an order. -/
def orderAudits : RelationshipDefinition where
  source := "Orders"
  name := "Audits"
  target := "Audits"
  cardinality := .oneToMany
  foreignKey := some "Order_ID"

/-- The shop with some audits. -/
def auditedShop (records : List (Ordered Json)) : Definition :=
  { shop with
    entitySets := shop.entitySets ++ [("Audits", shopAudits records)]
    relationships := shop.relationships ++ [orderAudits] }

/-- The audit of an order. -/
def shopAudit : Ordered Json := [("ID", .int 9), ("Order_ID", .int 1)]

/-- Customers and their orders lead to each other, and the audits show in neither. -/
theorem handle_eq_of_sameBut_auditedShop :
    let query := "$expand=Customer($expand=Orders($expand=Customer))"
    (auditedShop []).problems = [] ∧ (auditedShop [shopAudit]).problems = [] ∧
      (auditedShop []).SameBut (auditedShop [shopAudit]) "Audits" ∧
      (∀ item, (Options.parse query).HasItem item → ∀ r ∈ (auditedShop []).relationships,
        r.target = "Audits" → r.name ≠ item.name) ∧
      (auditedShop []).service.handle "Orders" query
        = (auditedShop [shopAudit]).service.handle "Orders" query ∧
      (auditedShop []).service.handle "$metadata" query
        = (auditedShop [shopAudit]).service.handle "$metadata" query := by
  intro query
  have hnames : ∀ item ∈ [(⟨"Customer", "$expand=Orders($expand=Customer)"⟩ : ExpandItem),
      ⟨"Orders", "$expand=Customer"⟩, ⟨"Customer", ""⟩],
      ∀ r ∈ (auditedShop []).relationships, r.target = "Audits" → r.name ≠ item.name := by
    decide
  have hquery : ∀ item, (Options.parse query).HasItem item →
      ∀ r ∈ (auditedShop []).relationships, r.target = "Audits" → r.name ≠ item.name :=
    fun item hitem => hnames item (hitem.mem (by decide) (by decide))
  have h : (auditedShop []).problems = [] := rfl
  have h' : (auditedShop [shopAudit]).problems = [] := rfl
  have hsame : (auditedShop []).SameBut (auditedShop [shopAudit]) "Audits" := rfl
  exact ⟨h, h', hsame, hquery,
    (handle_eq_of_sameBut h h' (by decide) hsame "Orders" query).2 (.collection "Orders") "Orders"
      rfl rfl (by decide) hquery,
    (handle_eq_of_sameBut h h' (by decide) hsame "$metadata" query).1 rfl⟩

end Definition

end OData
