/-
Definitions that differ in the records of one set.

The records of a set are looked up for requests that address the set, and for relationships that
lead to it.  Types, links and capabilities are made from what else a definition declares.  So two
definitions that differ in nothing but the records of one set register the same types, offer the same
records of every other set, and resolve every relationship alike that is not called like one that
leads to that set.

* `Definition.without`, `Definition.SameBut` — a definition without the records of a set, and
  definitions that differ in them only;
* `Definition.SameBut.records_eq`, `Definition.SameBut.find?_eq` — all other sets have the same
  records;
* `Definition.SameBut.agreeOn_toRegistry` — **the registries agree on all relationships that are not
  called like one that leads to the set**.
-/

import OData.Proofs.Dataset.Join
import OData.Proofs.Request.Agreement

set_option relaxedAutoImplicit false
set_option autoImplicit false

namespace OData

theorem Link.target_eq {definition : Definition} {type : EntityType} {r : RelationshipDefinition}
    {link : Link} (h : Link.ofRelationship? definition type r = some link) :
    link.target = r.target := by
  obtain ⟨key, -, rfl⟩ := Option.map_eq_some_iff.1 h
  cases r.cardinality <;> rfl

/-- A set without its records. -/
def SetDefinition.bare (set : SetDefinition) : SetDefinition := { set with records := [] }

namespace Definition

/-- A definition without the records of one set. -/
def without (definition : Definition) (hidden : String) : Definition :=
  { definition with
    entitySets := definition.entitySets.map fun e =>
      (e.1, if e.1 = hidden then e.2.bare else e.2) }

/-- Two definitions that differ in nothing but the records of one set. -/
def SameBut (definition other : Definition) (hidden : String) : Prop :=
  definition.without hidden = other.without hidden

/-- No relationship that leads to a set has some name. -/
def Avoids (definition : Definition) (hidden name : String) : Prop :=
  ∀ r ∈ definition.relationships, r.target = hidden → r.name ≠ name

theorem set?_without (definition : Definition) (hidden name : String) :
    (definition.without hidden).set? name
      = (definition.set? name).map fun set => if name = hidden then set.bare else set :=
  Ordered.get?_map (fun name (set : SetDefinition) => if name = hidden then set.bare else set) name
    definition.entitySets

namespace SameBut

variable {definition other : Definition} {hidden : String}

theorem schemaName_eq (h : definition.SameBut other hidden) :
    definition.schemaName = other.schemaName := by
  change (definition.without hidden).schemaName = (other.without hidden).schemaName
  rw [h]

theorem relationships_eq (h : definition.SameBut other hidden) :
    definition.relationships = other.relationships := by
  change (definition.without hidden).relationships = (other.without hidden).relationships
  rw [h]

theorem relationshipsFrom_eq (h : definition.SameBut other hidden) (set : String) :
    definition.relationshipsFrom set = other.relationshipsFrom set := by
  rw [relationshipsFrom, h.relationships_eq, relationshipsFrom]

/-- The sets other than the one in question are the same. -/
theorem set?_eq (h : definition.SameBut other hidden) {name : String} (hne : name ≠ hidden) :
    definition.set? name = other.set? name := by
  have hset := congrArg (fun d => d.set? name) h
  simpa only [set?_without, if_neg hne, Option.map_id'] using hset

/-- The set in question has the same fields and capabilities. -/
theorem bare_eq (h : definition.SameBut other hidden) (name : String) :
    (definition.set? name).map SetDefinition.bare = (other.set? name).map SetDefinition.bare := by
  by_cases hname : name = hidden
  · have hset := congrArg (fun d => d.set? name) h
    simpa only [set?_without, if_pos hname] using hset
  · rw [h.set?_eq hname]

theorem distinct (h : definition.SameBut other hidden) (hd : definition.entitySets.Distinct) :
    other.entitySets.Distinct := by
  have hkeys : ∀ d : Definition, (d.without hidden).entitySets.keys = d.entitySets.keys := by
    intro d
    rw [without, Ordered.keys, List.map_map]
    rfl
  rw [Ordered.Distinct, ← hkeys, ← h, hkeys]
  exact hd

/-! ### Types and links -/

theorem typeOf_eq (h : definition.SameBut other hidden) (name : String) (set : SetDefinition) :
    definition.typeOf name set = other.typeOf name set := by
  rw [typeOf, h.relationshipsFrom_eq, typeOf]

theorem types_eq (h : definition.SameBut other hidden) :
    definition.entitySets.map (fun e => definition.typeOf e.1 e.2)
      = other.entitySets.map fun e => other.typeOf e.1 e.2 := by
  have htypes : ∀ d : Definition, d.entitySets.map (fun e => d.typeOf e.1 e.2)
      = (d.without hidden).entitySets.map fun e => (d.without hidden).typeOf e.1 e.2 := by
    intro d
    rw [without, List.map_map]
    refine List.map_congr_left fun e _ => ?_
    simp only [Function.comp_apply]
    split <;> rfl
  rw [htypes, htypes other, h]

/-- A set, also the one in question, has the same type and the same capabilities. -/
theorem set?_cases (h : definition.SameBut other hidden) (name : String) :
    (definition.set? name = none ∧ other.set? name = none) ∨
      ∃ set set', definition.set? name = some set ∧ other.set? name = some set' ∧
        definition.typeOf name set = other.typeOf name set' ∧
        set.capabilities = set'.capabilities := by
  rcases map_eq_map_cases (h.bare_eq name) with hnone | ⟨set, set', hset, hset', hsame⟩
  · exact .inl hnone
  · obtain ⟨hfields, hcapabilities, -⟩ := SetDefinition.mk.inj hsame
    refine .inr ⟨set, set', hset, hset', ?_, hcapabilities⟩
    rw [h.typeOf_eq, typeOf, typeOf, hfields]

theorem linksOf_eq (h : definition.SameBut other hidden) (type : EntityType) :
    linksOf definition type = linksOf other type := by
  have hkey : definition.foreignKey? = other.foreignKey? := by
    funext r
    simp only [foreignKey?, partner?, h.relationships_eq]
  have hlink : Link.ofRelationship? definition type = Link.ofRelationship? other type := by
    funext r
    rw [Link.ofRelationship?, hkey, Link.ofRelationship?]
  rw [linksOf, linkList, h.relationshipsFrom_eq, hlink, linksOf, linkList]

/-! ### Records -/

/-- The records of the other sets are the same. -/
theorem get?_ofDefinition_eq (h : definition.SameBut other hidden) {name : String}
    (hne : name ≠ hidden) :
    Ordered.get? name (Dataset.ofDefinition definition)
      = Ordered.get? name (Dataset.ofDefinition other) := by
  have hseed : definition.seed name = other.seed name := by
    funext set members
    rw [seed, h.typeOf_eq, seed]
  simp only [get?_ofDefinition, h.set?_eq hne, h.typeOf_eq, hseed]

theorem records_eq (h : definition.SameBut other hidden) {name : String} (hne : name ≠ hidden) :
    (Dataset.ofDefinition definition).records name = (Dataset.ofDefinition other).records name := by
  rw [Dataset.records, h.get?_ofDefinition_eq hne, Dataset.records]

theorem find?_eq (h : definition.SameBut other hidden) {name : String} (hne : name ≠ hidden) :
    (Dataset.ofDefinition definition).find? name = (Dataset.ofDefinition other).find? name := by
  funext id
  rw [Dataset.find?, h.get?_ofDefinition_eq hne, Dataset.find?]

/-- A link to another set is resolved alike. -/
theorem resolve_eq (h : definition.SameBut other hidden) {link : Link} (hne : link.target ≠ hidden) :
    link.resolve (Dataset.ofDefinition definition) = link.resolve (Dataset.ofDefinition other) := by
  funext record
  simp only [Link.resolve, h.records_eq hne, h.find?_eq hne]

/-- The links of a set resolve a relationship alike that is not called like one that leads to the
set in question. -/
theorem capability_eq (h : definition.SameBut other hidden) (type : EntityType) {name : String}
    (hname : definition.Avoids hidden name) (record : FieldList) (text : String) :
    (Dataset.ofDefinition definition).capability (linksOf definition type) record name text
      = (Dataset.ofDefinition other).capability (linksOf definition type) record name text := by
  rw [Dataset.capability, Dataset.capability]
  cases hlink : Ordered.get? name (linksOf definition type) with
  | none => rfl
  | some link =>
      obtain ⟨r, hr, rfl, hof⟩ := exists_relationship_of_get?_linksOf hlink
      have htarget : link.target ≠ hidden := by
        rw [Link.target_eq hof]
        exact fun heq => hname r (List.mem_of_mem_filter hr) heq rfl
      rw [Option.bind_some, Option.bind_some, h.resolve_eq htarget]

/-! ### Registries -/

/-- **The registries agree on all relationships that are not called like one that leads to the set**
in question. -/
theorem agreeOn_toRegistry (h : definition.SameBut other hidden)
    (hd : definition.entitySets.Distinct) :
    Registry.AgreeOn (definition.Avoids hidden) definition.toRegistry.value
      other.toRegistry.value where
  type?_eq name := by
    rw [Registry.type?, Registry.type?, set?_toRegistry definition hd,
      set?_toRegistry other (h.distinct hd)]
    rcases h.set?_cases name with ⟨hset, hset'⟩ | ⟨set, set', hset, hset', htype, -⟩
    · rw [hset, hset']
      rfl
    · rw [hset, hset']
      exact congrArg some htype
  capability_eq name relationship hname record text := by
    rw [Registry.capability, Registry.capability, set?_toRegistry definition hd,
      set?_toRegistry other (h.distinct hd)]
    rcases h.set?_cases name with ⟨hset, hset'⟩ | ⟨set, set', hset, hset', htype, hcapabilities⟩
    · rw [hset, hset']
      rfl
    · rw [hset, hset', Option.map_some, Option.map_some]
      simp only [handlerOf, ← htype, ← hcapabilities, ← h.linksOf_eq]
      split
      · exact h.capability_eq _ hname record text
      · rfl

end SameBut

end Definition

end OData
