/-
What decides whether a request succeeds.

A request fails because its path leads nowhere, because the set or the record that it addresses is
not there, or because the set does not offer the fetch that is needed.  All of that is told from the
path and from what the fetches answer.  A query, however malformed, only shapes the records of an
answer that is given anyway, and so do the capabilities, whatever they resolve.

Main definitions:

* `Service.SameFetches` — services whose fetches answer the same, whatever their capabilities do;
* `Service.IsMissing`, `Service.IsUnsupported` — the paths that a service cannot answer;
* `Service.fault?` — why a route cannot be followed, told without a query.

Main results:

* `Service.value_follow` — the two outcomes of following a route;
* `Service.isUnsupported_iff`, `Service.isMissing_iff` — the status of a fault says what is wrong;
* `Service.outcome_handle` — **the query never decides success**.
-/

import OData.Proofs.Lookup
import OData.Proofs.Request.Nested
import OData.Service.Basic

set_option relaxedAutoImplicit false
set_option autoImplicit false

namespace OData

/-! ### Routes and fetches -/

/-- The entity set that a route leads to. -/
def Route.set? : Route → Option String
  | metadata => none
  | collection set => some set
  | entity set _ => some set

/-- What an answer along a route holds. -/
def Route.contentType : Route → ContentType
  | metadata => .xml
  | collection _ | entity _ _ => .json

/-- The fetches of an entity set: all records, and the record of a key. -/
def EntitySet.fetches (entitySet : EntitySet) :
    Option (List Record) × Option (String → Option Record) :=
  (entitySet.handler.collection, entitySet.handler.byId)

/-- Why fetches cannot give the records that a route leads to. -/
def EntitySet.fault? (entitySet : EntitySet) : Route → Option Fault
  | .metadata => none
  | .collection set =>
    match entitySet.fetches.1 with
    | none => some (.notOffered set .collection)
    | some _ => none
  | .entity set id =>
    match entitySet.fetches.2 with
    | none => some (.notOffered set .byId)
    | some find => if (find id).isSome then none else some (.unknownRecord set id)

namespace Service

/-- The sets of two services have the same fetches.  A service is one of the two at one request and
the other at the next if nothing but its capabilities answers differently. -/
def SameFetches (service other : Service) : Prop :=
  ∀ set, (service.registry.set? set).map EntitySet.fetches
    = (other.registry.set? set).map EntitySet.fetches

/-- A path leads nowhere, to a set that is not registered, or to a record that is not found. -/
inductive IsMissing (service : Service) (path : String) : Prop
  | route : Route.ofPath? path = none → IsMissing service path
  | set {route : Route} {set : String} :
      Route.ofPath? path = some route → route.set? = some set →
        service.registry.set? set = none → IsMissing service path
  | record {set id : String} {entitySet : EntitySet} {find : String → Option Record} :
      Route.ofPath? path = some (.entity set id) → service.registry.set? set = some entitySet →
        entitySet.handler.byId = some find → find id = none → IsMissing service path

/-- A path leads to a registered set that does not offer the fetch that is needed. -/
inductive IsUnsupported (service : Service) (path : String) : Prop
  | collection {set : String} {entitySet : EntitySet} :
      Route.ofPath? path = some (.collection set) → service.registry.set? set = some entitySet →
        entitySet.handler.collection = none → IsUnsupported service path
  | byId {set id : String} {entitySet : EntitySet} :
      Route.ofPath? path = some (.entity set id) → service.registry.set? set = some entitySet →
        entitySet.handler.byId = none → IsUnsupported service path

/-- Why a route cannot be followed. -/
def fault? (service : Service) (route : Route) : Option Fault :=
  match route.set? with
  | none => none
  | some set =>
    match service.registry.set? set with
    | none => some (.unknownSet set)
    | some entitySet => entitySet.fault? route

variable {service other : Service} {route : Route} {path set : String}

theorem fault?_of_eq_none (hroute : route.set? = some set)
    (hset : service.registry.set? set = none) :
    service.fault? route = some (.unknownSet set) := by
  simp only [fault?, hroute, hset]

theorem fault?_of_eq_some {entitySet : EntitySet} (hroute : route.set? = some set)
    (hset : service.registry.set? set = some entitySet) :
    service.fault? route = entitySet.fault? route := by
  simp only [fault?, hroute, hset]

/-- The fetches decide why a route cannot be followed. -/
theorem SameFetches.fault?_eq (h : service.SameFetches other) (route : Route) :
    service.fault? route = other.fault? route := by
  cases hroute : route.set? with
  | none => simp only [fault?, hroute]
  | some set =>
      rcases map_eq_map_cases (h set) with ⟨hset, hset'⟩ | ⟨_, _, hset, hset', hsame⟩
      · rw [fault?_of_eq_none hroute hset, fault?_of_eq_none hroute hset']
      · rw [fault?_of_eq_some hroute hset, fault?_of_eq_some hroute hset']
        cases route with
        | metadata => rfl
        | collection | entity => simp only [EntitySet.fault?, hsame]

/-! ### Following a route -/

/-- A result is an error exactly where there is a fault, and then it is that fault. -/
def Meets {α : Type} (fault? : Option Fault) (result : Except Fault α) : Prop :=
  match fault? with
  | some fault => result = .error fault
  | none => ∃ a, result = .ok a

theorem Meets.cases {α : Type} {fault? : Option Fault} {result : Except Fault α}
    (h : Meets fault? result) :
    (∃ fault, fault? = some fault ∧ result = .error fault) ∨
      fault? = none ∧ ∃ a, result = .ok a := by
  cases fault? with
  | some fault => exact .inl ⟨fault, rfl, h⟩
  | none => exact .inr ⟨rfl, h⟩

variable (service)

/-- A collection is fetched unless the fetches have a fault. -/
theorem meets_collection (set query : String) :
    Meets (service.fault? (.collection set)) (service.collection set query).value := by
  cases hset : service.registry.set? set with
  | none =>
      rw [fault?_of_eq_none rfl hset]
      simp only [Meets, collection, Registry.handler, hset, Journal.value_pure]
  | some entitySet =>
      rw [fault?_of_eq_some rfl hset]
      simp only [collection, Registry.handler, hset, EntitySet.fault?, EntitySet.fetches]
      cases entitySet.handler.collection with
      | none => rfl
      | some records => exact ⟨_, rfl⟩

/-- A record is found unless the fetches have a fault. -/
theorem meets_entity (set id query : String) :
    Meets (service.fault? (.entity set id)) (service.entity set id query).value := by
  cases hset : service.registry.set? set with
  | none =>
      rw [fault?_of_eq_none rfl hset]
      simp only [Meets, entity, Registry.handler, hset, Journal.value_pure]
  | some entitySet =>
      rw [fault?_of_eq_some rfl hset]
      simp only [entity, Registry.handler, hset, EntitySet.fault?, EntitySet.fetches]
      cases entitySet.handler.byId with
      | none => rfl
      | some find =>
          cases hrecord : find id with
          | none => simp [Meets, hrecord]
          | some record => simp [Meets, hrecord]

/-- A route is followed unless the fetches have a fault, and then the answer is that fault. -/
theorem value_follow (route : Route) (query : String) :
    (∃ fault, service.fault? route = some fault ∧
        (service.follow query route).value = .ofFault fault) ∨
      service.fault? route = none ∧ (service.follow query route).value.status = 200 ∧
        (service.follow query route).value.contentType = route.contentType := by
  cases route with
  | metadata => exact .inr ⟨rfl, rfl, rfl⟩
  | collection set =>
      rw [follow, Journal.value_bind]
      rcases (service.meets_collection set query).cases with ⟨fault, hfault, hvalue⟩ |
        ⟨hfault, _, hvalue⟩
      · rw [hvalue]
        exact .inl ⟨fault, hfault, rfl⟩
      · rw [hvalue]
        exact .inr ⟨hfault, rfl, rfl⟩
  | entity set id =>
      rw [follow, Journal.value_bind]
      rcases (service.meets_entity set id query).cases with ⟨fault, hfault, hvalue⟩ |
        ⟨hfault, _, hvalue⟩
      · rw [hvalue]
        exact .inl ⟨fault, hfault, rfl⟩
      · rw [hvalue]
        exact .inr ⟨hfault, rfl, rfl⟩

/-! ### Paths that cannot be answered -/

variable {service}

theorem IsUnsupported.exists_fault (h : service.IsUnsupported path) :
    ∃ route fault, Route.ofPath? path = some route ∧ service.fault? route = some fault ∧
      fault.status = 501 := by
  cases h with
  | @collection set entitySet hpath hset hfetch =>
      refine ⟨_, .notOffered set .collection, hpath, ?_, rfl⟩
      rw [fault?_of_eq_some rfl hset]
      simp only [EntitySet.fault?, EntitySet.fetches, hfetch]
  | @byId set id entitySet hpath hset hfetch =>
      refine ⟨_, .notOffered set .byId, hpath, ?_, rfl⟩
      rw [fault?_of_eq_some rfl hset]
      simp only [EntitySet.fault?, EntitySet.fetches, hfetch]

theorem IsMissing.exists_fault (h : service.IsMissing path) :
    Route.ofPath? path = none ∨ ∃ route fault, Route.ofPath? path = some route ∧
      service.fault? route = some fault ∧ fault.status = 404 := by
  cases h with
  | route hpath => exact .inl hpath
  | @set route set hpath hroute hset =>
      exact .inr ⟨route, .unknownSet set, hpath, fault?_of_eq_none hroute hset, rfl⟩
  | @record set id entitySet find hpath hset hfetch hrecord =>
      refine .inr ⟨_, .unknownRecord set id, hpath, ?_, rfl⟩
      rw [fault?_of_eq_some rfl hset]
      simp [EntitySet.fault?, EntitySet.fetches, hfetch, hrecord]

/-- The status of a fault says in which of the two ways the path fails. -/
theorem status_of_fault (hpath : Route.ofPath? path = some route) {fault : Fault}
    (h : service.fault? route = some fault) :
    fault.status = 501 ∧ service.IsUnsupported path ∨
      fault.status = 404 ∧ service.IsMissing path := by
  cases hroute : route.set? with
  | none => simp [fault?, hroute] at h
  | some set =>
      cases hset : service.registry.set? set with
      | none =>
          obtain rfl := Option.some.inj ((fault?_of_eq_none hroute hset).symm.trans h)
          exact .inr ⟨rfl, .set hpath hroute hset⟩
      | some entitySet =>
          rw [fault?_of_eq_some hroute hset] at h
          cases route with
          | metadata => cases h
          | collection set' =>
              obtain rfl := Option.some.inj hroute
              cases hfetch : entitySet.handler.collection with
              | some records => simp [EntitySet.fault?, EntitySet.fetches, hfetch] at h
              | none =>
                  simp only [EntitySet.fault?, EntitySet.fetches, hfetch, Option.some.injEq] at h
                  subst h
                  exact .inl ⟨rfl, .collection hpath hset hfetch⟩
          | entity set' id =>
              obtain rfl := Option.some.inj hroute
              cases hfetch : entitySet.handler.byId with
              | none =>
                  simp only [EntitySet.fault?, EntitySet.fetches, hfetch, Option.some.injEq] at h
                  subst h
                  exact .inl ⟨rfl, .byId hpath hset hfetch⟩
              | some find =>
                  cases hrecord : find id with
                  | some record =>
                      simp [EntitySet.fault?, EntitySet.fetches, hfetch, hrecord] at h
                  | none =>
                      simp [EntitySet.fault?, EntitySet.fetches, hfetch, hrecord] at h
                      subst h
                      exact .inr ⟨rfl, .record hpath hset hfetch hrecord⟩

theorem isUnsupported_iff (hpath : Route.ofPath? path = some route) :
    service.IsUnsupported path ↔
      ∃ fault, service.fault? route = some fault ∧ fault.status = 501 := by
  constructor
  · intro h
    obtain ⟨route', fault, hpath', hfault, hstatus⟩ := h.exists_fault
    obtain rfl := Option.some.inj (hpath.symm.trans hpath')
    exact ⟨fault, hfault, hstatus⟩
  · rintro ⟨fault, hfault, hstatus⟩
    rcases status_of_fault hpath hfault with ⟨-, h⟩ | ⟨hother, -⟩
    · exact h
    · cases hstatus.symm.trans hother

theorem isMissing_iff (hpath : Route.ofPath? path = some route) :
    service.IsMissing path ↔
      ∃ fault, service.fault? route = some fault ∧ fault.status = 404 := by
  constructor
  · intro h
    rcases h.exists_fault with hnone | ⟨route', fault, hpath', hfault, hstatus⟩
    · cases hpath.symm.trans hnone
    · obtain rfl := Option.some.inj (hpath.symm.trans hpath')
      exact ⟨fault, hfault, hstatus⟩
  · rintro ⟨fault, hfault, hstatus⟩
    rcases status_of_fault hpath hfault with ⟨hother, -⟩ | ⟨-, h⟩
    · cases hstatus.symm.trans hother
    · exact h

theorem value_handle (hpath : Route.ofPath? path = some route) (query : String) :
    (service.handle path query).value = (service.follow query route).value := by
  simp only [handle, hpath, Journal.value_bind]

/-- **The query never decides success.**  The status and the content type of an answer are the same
for every query, and whatever the capabilities resolve, as long as the fetches answer the same.  The
status is 200, 404 or 501: 501 if the path leads to a registered set that does not offer the fetch
that is needed, and 404 if it leads to nothing that is there.  What is refused is refused with the
same text. -/
theorem outcome_handle (h : service.SameFetches other) (path query query' : String) :
    let response := (service.handle path query).value
    let response' := (other.handle path query').value
    response.status = response'.status ∧ response.contentType = response'.contentType ∧
      (response.status = 200 ∨ response.status = 404 ∨ response.status = 501) ∧
      (response.status = 501 ↔ service.IsUnsupported path) ∧
      (response.status = 404 ↔ service.IsMissing path) ∧
      (response.status = 404 ∨ response.status = 501 → response.body = response'.body) := by
  intro response response'
  cases hpath : Route.ofPath? path with
  | none =>
      have hresponse : response = .noResource path := by
        simp only [response, handle, hpath, Journal.value_pure]
      have hresponse' : response' = .noResource path := by
        simp only [response', handle, hpath, Journal.value_pure]
      rw [hresponse, hresponse']
      refine ⟨rfl, rfl, .inr (.inl rfl), ⟨nofun, fun hunsupported => ?_⟩,
        ⟨fun _ => .route hpath, fun _ => rfl⟩, fun _ => rfl⟩
      obtain ⟨route, -, hroute, -⟩ := hunsupported.exists_fault
      rw [hpath] at hroute
      cases hroute
  | some route =>
      have hresponse : response = (service.follow query route).value := value_handle hpath query
      have hresponse' : response' = (other.follow query' route).value := value_handle hpath query'
      have hsame : service.fault? route = other.fault? route := h.fault?_eq route
      rw [isUnsupported_iff hpath, isMissing_iff hpath, hresponse, hresponse']
      rcases service.value_follow route query with ⟨fault, hfault, hvalue⟩ | ⟨hfault, hstatus, htype⟩
      · -- the fault is found again, and nothing else is answered
        rcases other.value_follow route query' with ⟨fault', hfault', hvalue'⟩ | ⟨hnone, -⟩
        · obtain rfl : fault = fault' :=
            Option.some.inj (hfault.symm.trans (hsame.trans hfault'))
          have hstatus : fault.status = 501 ∨ fault.status = 404 :=
            (status_of_fault hpath hfault).imp And.left And.left
          rw [hvalue, hvalue', hfault]
          refine ⟨rfl, rfl, .inr hstatus.symm, ?_, ?_, fun _ => rfl⟩
          · exact ⟨fun hs => ⟨fault, rfl, hs⟩, fun ⟨_, heq, hs⟩ => Option.some.inj heq ▸ hs⟩
          · exact ⟨fun hs => ⟨fault, rfl, hs⟩, fun ⟨_, heq, hs⟩ => Option.some.inj heq ▸ hs⟩
        · cases hfault.symm.trans (hsame.trans hnone)
      · -- without a fault both answers succeed
        rcases other.value_follow route query' with ⟨fault', hfault', -⟩ | ⟨-, hstatus', htype'⟩
        · cases hfault'.symm.trans (hsame.symm.trans hfault)
        · rw [hstatus, hstatus', htype, htype', hfault]
          refine ⟨rfl, rfl, .inl rfl, ⟨nofun, nofun⟩, ⟨nofun, nofun⟩, ?_⟩
          rintro (h404 | h501)
          · cases h404
          · cases h501

/-! ### A reading room -/

/-- A room where authors can be looked up and books cannot. -/
def readingRoom (expand : Capability) : Service :=
  (ofRegistry (.ofRegistrations "Library"
    [.set author.type { collection := some [author],
                        byId := some fun id => if id = "Ada" then some author else none, expand },
      .set book.type {}])).value

theorem sameFetches_readingRoom (expand expand' : Capability) :
    (readingRoom expand).SameFetches (readingRoom expand') := by
  intro set
  simp only [readingRoom, ofRegistry, Journal.value_bind, Journal.value_pure,
    Registry.ofRegistrations, List.foldl_cons, List.foldl_nil, Registry.apply,
    Registry.set?_register]
  by_cases hbooks : set = book.type.name
  · simp only [if_pos hbooks, Option.map_some, EntitySet.fetches]
  · by_cases hauthors : set = author.type.name
    · simp only [if_neg hbooks, if_pos hauthors, Option.map_some, EntitySet.fetches]
    · simp only [if_neg hbooks, if_neg hauthors, Registry.set?_empty, Option.map_none]

theorem outcome_handle_readingRoom :
    let service := readingRoom authorRelated
    let other := readingRoom Capability.none
    service.SameFetches other ∧
      (service.handle "/Authors('Ada')/" "$expand=Books($top=)&$skip=-1").value.status
        = (other.handle "/Authors('Ada')/" "").value.status ∧
      (service.handle "odata/v4/Books" "$expand=((").value.status = 501 ∧
      (service.handle "Authors/Eve" "$top=1e9").value.status = 404 ∧
      (service.handle "Authors/Eve" "$top=1e9").value.body
        = (other.handle "Authors/Eve" "$select=Name").value.body ∧
      (service.handle "Readers(1)" "?").value.status = 404 ∧
      (service.handle "//" "?").value.status = 404 :=
  have h := sameFetches_readingRoom authorRelated Capability.none
  have hbooks := outcome_handle h "odata/v4/Books" "$expand=((" ""
  have heve := outcome_handle h "Authors/Eve" "$top=1e9" "$select=Name"
  have hstatus : _ = 404 := heve.2.2.2.2.1.2 (.record rfl rfl rfl rfl)
  ⟨h, (outcome_handle h "/Authors('Ada')/" _ _).1, hbooks.2.2.2.1.2 (.collection rfl rfl rfl),
    hstatus, heve.2.2.2.2.2 (.inl hstatus),
    (outcome_handle h "Readers(1)" "?" "").2.2.2.2.1.2 (.set rfl rfl rfl),
    (outcome_handle h "//" "?" "").2.2.2.2.1.2 (.route rfl)⟩

end Service

end OData
