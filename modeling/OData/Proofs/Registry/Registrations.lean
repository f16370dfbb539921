/-
A registry refines the registrations that it is built from.

Registrations come in any order: names may be registered again, and relationships before their sets,
after them or without them.  Of all this a registry keeps what a map would keep.  A name has the
entity set that was registered under it last, and a relationship of a set leads where it was last
said to lead; both are listed where their names first came.

Main definitions:

* `Registration.registeredSet?`, `Registration.givenRelationship?` — what a registration is about;
* `Ordered.last?` — the entry that a name was given last;
* `Registry.IgnoresSubQuery` — no capability looks at the text in a term's parentheses.

Main results:

* `Registry.sets_apply`, `Registry.relationships?_apply` — one registration;
* `Registry.sets_ofRegistrations`, `Registry.relationships?_ofRegistrations` — several of them;
* `Registry.ofRegistrations_refines` — **a registry answers with the last registrations**;
* `Registry.ignoresSubQuery_ofRegistrations` — what no registered capability looks at, none of the
  registry does.
-/

import Mathlib.Data.List.Induction
import OData.Registry.Basic

set_option relaxedAutoImplicit false
set_option autoImplicit false

namespace OData

/-! ### What is registered -/

namespace Registration

/-- The entity set that is registered, under its name. -/
def registeredSet? : Registration → Option (String × EntitySet)
  | .set type handler => some (type.name, ⟨type, handler⟩)
  | .relationship .. => none

/-- The relationship that a set is given, under its name. -/
def givenRelationship? (source : String) : Registration → Option (String × Relationship)
  | .set .. => none
  | .relationship owner name given => if owner = source then some (name, given) else none

end Registration

/-- The entry that a name is given last. -/
def Ordered.last? {β : Type} (name : String) (entries : List (String × β)) : Option β :=
  Ordered.get? name entries.reverse

namespace Registry

/-! ### One registration -/

theorem sets_apply (registry : Registry) (registration : Registration) :
    (registry.apply registration).sets = match registration.registeredSet? with
      | some (name, set) => registry.sets.insert name set
      | none => registry.sets := by
  cases registration with
  | set type handler => exact registry.sets_register type handler
  | relationship set name relationship => rfl

/-- A relationship is given to the set that it is registered for, and to no other. -/
theorem relationships?_apply (registry : Registry) (registration : Registration) (source : String) :
    (registry.apply registration).relationships? source
      = match registration.givenRelationship? source with
        | some (name, relationship) =>
          some ((registry.relationshipsOf source).insert name relationship)
        | none => registry.relationships? source := by
  cases registration with
  | set type handler => rfl
  | relationship owner name relationship =>
      rw [apply, relationships?, relate, Ordered.get?_insert, Registration.givenRelationship?]
      by_cases h : owner = source
      · simp [h]
      · simp [h, Ne.symm h, relationships?]

/-! ### Several registrations -/

theorem relationshipsOf_eq (registry : Registry) (source : String) :
    registry.relationshipsOf source = (registry.relationships? source).getD [] := rfl

theorem ofRegistrations_concat (schemaName : String) (registrations : List Registration)
    (last : Registration) :
    ofRegistrations schemaName (registrations ++ [last])
      = (ofRegistrations schemaName registrations).apply last := by
  rw [ofRegistrations, List.foldl_append]
  rfl

/-- Registrations leave the namespace alone. -/
theorem schemaName_ofRegistrations (schemaName : String) (registrations : List Registration) :
    (ofRegistrations schemaName registrations).schemaName = schemaName := by
  induction registrations using List.reverseRecOn with
  | nil => rfl
  | append_singleton registrations last ih =>
      rw [ofRegistrations_concat]
      cases last <;> exact ih

/-- **The entity sets of a registry** are those of the registrations, inserted one after the other. -/
theorem sets_ofRegistrations (schemaName : String) (registrations : List Registration) :
    (ofRegistrations schemaName registrations).sets
      = Ordered.ofList (registrations.filterMap Registration.registeredSet?) := by
  induction registrations using List.reverseRecOn with
  | nil => rfl
  | append_singleton registrations last ih =>
      rw [ofRegistrations_concat, sets_apply, ih, List.filterMap_append]
      cases last with
      | set type handler =>
          exact (Ordered.ofList_append_singleton _ (type.name, (⟨type, handler⟩ : EntitySet))).symm
      | relationship set name relationship => exact congrArg _ (List.append_nil _).symm

/-- **The relationships of a set** are those that the registrations give it, inserted one after the
other. -/
theorem relationshipsOf_ofRegistrations (schemaName : String) (registrations : List Registration)
    (source : String) :
    (ofRegistrations schemaName registrations).relationshipsOf source
      = Ordered.ofList (registrations.filterMap (Registration.givenRelationship? source)) := by
  induction registrations using List.reverseRecOn with
  | nil => rfl
  | append_singleton registrations last ih =>
      rw [ofRegistrations_concat, relationshipsOf_eq, relationships?_apply, List.filterMap_append]
      cases hlast : last.givenRelationship? source with
      | none => simpa [hlast, ← relationshipsOf_eq] using ih
      | some entry =>
          rw [List.filterMap_cons_some hlast, List.filterMap_nil, Ordered.ofList_append_singleton,
            ← ih]
          rfl

/-- A set that is given no relationship has no list of them. -/
theorem relationships?_ofRegistrations (schemaName : String) (registrations : List Registration)
    (source : String) :
    (ofRegistrations schemaName registrations).relationships? source
      = if registrations.filterMap (Registration.givenRelationship? source) = [] then none
        else some ((ofRegistrations schemaName registrations).relationshipsOf source) := by
  induction registrations using List.reverseRecOn with
  | nil => rfl
  | append_singleton registrations last ih =>
      rw [ofRegistrations_concat, relationshipsOf_eq, relationships?_apply, List.filterMap_append]
      cases hlast : last.givenRelationship? source with
      | none => simpa [hlast, ← relationshipsOf_eq] using ih
      | some entry => simp [List.filterMap_cons_some hlast]

/-! ### Asking a registry -/

/-- A name has the entity set that was registered under it last. -/
theorem set?_ofRegistrations (schemaName : String) (registrations : List Registration)
    (name : String) :
    (ofRegistrations schemaName registrations).set? name
      = Ordered.last? name (registrations.filterMap Registration.registeredSet?) := by
  rw [set?_eq, sets_ofRegistrations, Ordered.get?_ofList, Ordered.last?]

/-- **A registry answers with the last registrations.**  Whatever is registered and in whatever
order, the types stand where their names first came, each name once.  A name leads to the entity set
that was registered under it last, and to the answers for an unknown set if there is none.  A set has
the relationships that it was given, each name once and where it first came, with the target and the
cardinality given last, whether or not the set itself is registered. -/
theorem ofRegistrations_refines (schemaName : String) (registrations : List Registration) :
    let registry := ofRegistrations schemaName registrations
    let sets := registrations.filterMap Registration.registeredSet?
    registry.types.map (·.name) = (sets.map Prod.fst).eraseDups ∧
      (∀ type ∈ registry.types, registry.type? type.name = some type) ∧
      (∀ name,
        registry.contains name = (Ordered.last? name sets).isSome ∧
        registry.type? name = (Ordered.last? name sets).map (·.type) ∧
        registry.handler name = (match Ordered.last? name sets with
          | some set => .ok set.handler
          | none => .error (.unknownSet name)) ∧
        registry.capability name = (match Ordered.last? name sets with
          | some set => set.handler.expand
          | none => Capability.none)) ∧
      ∀ source,
        let given := registrations.filterMap (Registration.givenRelationship? source)
        (registry.relationships? source = none ↔ given = []) ∧
        (∀ relationships ∈ registry.relationships? source,
          relationships.keys = (given.map Prod.fst).eraseDups ∧
          ∀ name, Ordered.get? name relationships = Ordered.last? name given) ∧
        ∀ name, registry.relationship? source name = Ordered.last? name given := by
  intro registry sets
  refine ⟨?_, fun type htype => registry.type?_of_mem_types htype, fun name => ?_, fun source => ?_⟩
  · rw [names_types, sets_ofRegistrations, Ordered.keys_ofList]
  · have hset : registry.set? name = Ordered.last? name sets :=
      set?_ofRegistrations schemaName registrations name
    rw [contains_eq, Ordered.contains, ← set?_eq, type?, handler, capability, hset]
    cases Ordered.last? name sets <;> exact ⟨rfl, rfl, rfl, rfl⟩
  · intro given
    have hgiven : registry.relationships? source
        = if given = [] then none else some (Ordered.ofList given) := by
      rw [relationships?_ofRegistrations, relationshipsOf_ofRegistrations]
    refine ⟨by simp [hgiven], fun relationships hrelationships => ?_, fun name => ?_⟩
    · obtain ⟨-, rfl⟩ : given ≠ [] ∧ Ordered.ofList given = relationships := by
        simpa [hgiven] using hrelationships
      exact ⟨Ordered.keys_ofList given, Ordered.get?_ofList given⟩
    · rw [relationship?, relationshipsOf_ofRegistrations, Ordered.get?_ofList, Ordered.last?]

end Registry

/-! ### The text in parentheses -/

/-- A capability that does not look at the text in a term's parentheses. -/
def Capability.IgnoresSubQuery (capability : Capability) : Prop :=
  ∀ record relationship subQuery subQuery',
    capability record relationship subQuery = capability record relationship subQuery'

theorem Capability.ignoresSubQuery_none : Capability.none.IgnoresSubQuery := fun _ _ _ _ => rfl

/-- A registration of a capability that does not look at the text in parentheses, or of none. -/
def Registration.IgnoresSubQuery : Registration → Prop
  | .set _ handler => handler.expand.IgnoresSubQuery
  | .relationship .. => True

/-- A registry none of whose capabilities looks at the text in parentheses. -/
def Registry.IgnoresSubQuery (registry : Registry) : Prop :=
  ∀ set, (registry.capability set).IgnoresSubQuery

namespace Registry

theorem ignoresSubQuery_empty (schemaName : String) : (empty schemaName).IgnoresSubQuery :=
  fun _ => Capability.ignoresSubQuery_none

/-- One registration. -/
theorem IgnoresSubQuery.apply {registry : Registry} (h : registry.IgnoresSubQuery)
    {registration : Registration} (hlast : registration.IgnoresSubQuery) :
    (registry.apply registration).IgnoresSubQuery := by
  cases registration with
  | set type handler =>
      intro set
      rw [Registry.apply, capability, set?_register]
      by_cases hset : set = type.name
      · rw [if_pos hset]
        exact hlast
      · rw [if_neg hset]
        exact h set
  | relationship set name relationship => exact h

/-- Several registrations. -/
theorem ignoresSubQuery_ofRegistrations (schemaName : String) {registrations : List Registration}
    (h : ∀ registration ∈ registrations, registration.IgnoresSubQuery) :
    (ofRegistrations schemaName registrations).IgnoresSubQuery := by
  induction registrations using List.reverseRecOn with
  | nil => exact ignoresSubQuery_empty schemaName
  | append_singleton registrations last ih =>
      rw [List.forall_mem_append, List.forall_mem_singleton] at h
      rw [ofRegistrations_concat]
      exact (ih h.1).apply h.2

end Registry

end OData
