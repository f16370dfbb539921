/-
Both ways of reading a record.

A record can be asked for by its key, or along with the collection that it belongs to.  The two
requests go different ways, but they show the record alike: with the same expansions and the same
fields, whatever the query is.  Of several records with the same key only the first is found by it,
and a record without a key is not found by any.

* `getElem?_window` — where the items of a list stand in a window of it;
* `Service.value_entity` — the answer to a request by key;
* `SetDefinition.FirstOf` — a record that no earlier one hides;
* `Definition.find?_ofDefinition_eq_some`, `Definition.find?_ofDefinition_eq_none_iff` — which
  records are found by a key;
* `Definition.entity_agrees_collection` — **both ways of reading a record agree**.
-/

import OData.Proofs.Service.Paging
import OData.Proofs.Service.Unrelated

set_option relaxedAutoImplicit false
set_option autoImplicit false

namespace OData

open Query

/-- A window that reaches a place shows the item there, counted from the start of the window. -/
theorem getElem?_window {α : Type} (items : List α) {skip : Nat} {top : Option Nat} {place : Nat}
    (hskip : skip ≤ place) (htop : ∀ limit ∈ top, place < skip + limit) :
    (window items skip top)[place - skip]? = items[place]? := by
  have hdrop : (items.drop skip)[place - skip]? = items[place]? := by
    rw [List.getElem?_drop, Nat.add_sub_cancel' hskip]
  cases top with
  | none => exact hdrop
  | some limit =>
      have hlt : place - skip < limit := by
        have := htop limit rfl
        omega
      rw [window_some, List.getElem?_take_of_lt hlt, hdrop]

/-- A record that stands at some place of a set and has a key that none before it has. -/
structure SetDefinition.FirstOf (set : SetDefinition) (place : Nat) (members : Ordered Json)
    (key : String) : Prop where
  place_eq : set.records[place]? = some members
  key_eq : keyText? members set.keyName = some key
  first : ∀ earlier ∈ set.records.take place, keyText? earlier set.keyName ≠ some key

/-- A record is answered if it is found by its key; no query makes a difference to that. -/
theorem Service.value_entity {service : Service} {set : String} {entitySet : EntitySet}
    {find : String → Option Record} (hset : service.registry.set? set = some entitySet)
    (hfind : entitySet.handler.byId = some find) (id query : String) :
    (service.entity set id query).value = match find id with
      | none => .error (.unknownRecord set id)
      | some record => .ok (.ofSet set
          (record.answer service.registry (Options.parse query)).value) := by
  simp only [entity, Registry.handler, hset, hfind]
  cases find id <;> rfl

namespace Definition

variable {definition : Definition} {name : String} {set : SetDefinition}

/-! ### What is found by a key -/

theorem find?_ofDefinition_eq_some (hk : definition.Keyed) (hset : definition.set? name = some set)
    {place : Nat} {members : Ordered Json} {key : String} (hfirst : set.FirstOf place members key) :
    (Dataset.ofDefinition definition).find? name key
      = some (definition.seed name set members) := by
  have hfind : (set.records.find? fun record => keyText? record set.keyName == some key)
      = some members :=
    find?_eq_some_of_first hfirst.place_eq (by simpa using hfirst.key_eq)
      fun earlier hearlier => by simpa using hfirst.first earlier hearlier
  rw [find?_ofDefinition hset fun _ => hk.distinct_record hset, hfind, Option.map_some]

theorem find?_ofDefinition_eq_none_iff (hk : definition.Keyed)
    (hset : definition.set? name = some set) {id : String} :
    (Dataset.ofDefinition definition).find? name id = none ↔
      ∀ members ∈ set.records, keyText? members set.keyName ≠ some id := by
  rw [find?_ofDefinition hset fun _ => hk.distinct_record hset, Option.map_eq_none_iff,
    List.find?_eq_none]
  simp

/-! ### Both requests -/

/-- **Both ways of reading a record agree.**  A record that is the first of its key is found by the
key, and wherever the window of the query reaches it, the collection shows it at its place in the
window exactly as the request by key does.  A key is unknown exactly if no record has it. -/
theorem entity_agrees_collection {built : Journal Event Registry}
    (h : definition.build = .ok built) (hk : definition.Keyed)
    (hset : definition.set? name = some set) (hcollection : set.capabilities.collection = true)
    (hbyId : set.capabilities.byId = true) :
    let service := (Service.ofRegistry built.value).value
    (∀ place members key, set.FirstOf place members key → ∀ query, ∃ answer answers,
      (service.entity name key query).value = .ok (.ofSet name answer) ∧
      (service.collection name query).value = .ok (.ofSet name answers) ∧
      ((Options.parse query).skip ≤ place →
        (∀ limit ∈ (Options.parse query).top, place < (Options.parse query).skip + limit) →
          answers[place - (Options.parse query).skip]? = some answer)) ∧
    ∀ id query, (service.entity name id query).value = .error (.unknownRecord name id) ↔
      ∀ members ∈ set.records, keyText? members set.keyName ≠ some id := by
  obtain rfl : definition.toRegistry = built := by
    rw [build] at h
    split at h
    · exact Except.ok.inj h
    · cases h
  intro service
  have hregistered : service.registry.set? name = some ⟨definition.typeOf name set,
      definition.handlerOf (Dataset.ofDefinition definition) name set⟩ := by
    change definition.toRegistry.value.set? name = _
    rw [set?_toRegistry definition hk.sets, hset, Option.map_some]
  have hrecords : (definition.handlerOf (Dataset.ofDefinition definition) name set).collection
      = some (set.records.map (definition.record name set)) := by
    rw [handlerOf, if_pos hcollection, records_ofDefinition hset, List.map_map]
    rfl
  have hfetch : (definition.handlerOf (Dataset.ofDefinition definition) name set).byId
      = some fun id => ((Dataset.ofDefinition definition).find? name id).map
          SeedRecord.toRecord := by
    rw [handlerOf, if_pos hbyId]
  refine ⟨fun place members key hfirst query => ?_, fun id query => ?_⟩
  · refine ⟨((definition.record name set members).answer service.registry
        (Options.parse query)).value, _, ?_, Service.value_collection hregistered hrecords query,
      fun hskip htop => ?_⟩
    · rw [Service.value_entity hregistered hfetch, find?_ofDefinition_eq_some hk hset hfirst]
      rfl
    · rw [List.getElem?_map, getElem?_window _ hskip htop, List.getElem?_map, hfirst.place_eq]
      rfl
  · rw [Service.value_entity hregistered hfetch, ← find?_ofDefinition_eq_none_iff hk hset]
    cases (Dataset.ofDefinition definition).find? name id with
    | none => simp
    | some found => simp

/-! ### A cloakroom -/

/-- A coat, which may have been handed in without a tag. -/
def coat (tag : Json) (colour : String) : Ordered Json :=
  [("Tag", tag), ("Colour", .string colour)]

/-- Coats, one of them without a tag and two with the same. -/
def coats : SetDefinition where
  fields := [{ name := "Tag", isKey := true }, { name := "Colour" }]
  records := [coat .null "red", coat (.string "7") "green", coat (.string "7") "blue"]

/-- A cloakroom that gave out a tag twice. -/
def cloakroom : Definition where
  version := "1.0"
  entitySets := [("Coats", coats)]

theorem entity_agrees_collection_cloakroom :
    let service := (Service.ofRegistry cloakroom.toRegistry.value).value
    (cloakroom.build = .ok cloakroom.toRegistry ∧ cloakroom.Keyed ∧
      cloakroom.set? "Coats" = some coats ∧ coats.capabilities.collection = true ∧
      coats.capabilities.byId = true ∧ coats.FirstOf 1 (coat (.string "7") "green") "7") ∧
    (∃ answer answers,
      (service.entity "Coats" "7" "$skip=1&$select=Colour").value = .ok (.ofSet "Coats" answer) ∧
      (service.collection "Coats" "$skip=1&$select=Colour").value = .ok (.ofSet "Coats" answers) ∧
      answers[0]? = some answer) ∧
    (service.entity "Coats" "8" "").value = .error (.unknownRecord "Coats" "8") := by
  have hbuild : cloakroom.build = .ok cloakroom.toRegistry := rfl
  have hkeyed : cloakroom.Keyed := ⟨by decide, by decide⟩
  have hfirst : coats.FirstOf 1 (coat (.string "7") "green") "7" := ⟨rfl, rfl, by decide⟩
  have hskip : (Options.parse "$skip=1&$select=Colour").skip = 1 := rfl
  have htop : (Options.parse "$skip=1&$select=Colour").top = none := rfl
  obtain ⟨hfound, hunknown⟩ := @entity_agrees_collection cloakroom "Coats" coats
    cloakroom.toRegistry hbuild hkeyed rfl rfl rfl
  obtain ⟨answer, answers, hentity, hcollection, hshown⟩ := hfound 1 _ _ hfirst
    "$skip=1&$select=Colour"
  rw [hskip, htop] at hshown
  exact ⟨⟨hbuild, hkeyed, rfl, rfl, rfl, hfirst⟩,
    ⟨answer, answers, hentity, hcollection, hshown Nat.le.refl nofun⟩,
    (hunknown "8" "").2 (by decide)⟩

end Definition

end OData
