/-
Expansion: related records inside a record.

Each expand term is put to the capability of the entity set that the record comes from.  What it
answers is introspected, expanded by the nested terms, cut to the nested window, projected by the
nested paths and appended under the wire name of the navigation field.  A term that the capability
cannot resolve leaves the record as it is.  The recursion is on the terms, so that relationships may
run in circles.

* `expansionKey`, `expansionKey_eq_iff` — the name under which a relationship's records appear;
* `expandTerm`, `expandTerms` — one term, and several in order, on a field list;
* `Record.expanded` — a record's field list with some terms expanded.
-/

import OData.Field.Projection
import OData.Query.Term
import OData.Registry.Basic
import OData.Request.Window

set_option relaxedAutoImplicit false
set_option autoImplicit false

namespace OData

open Query

/-- The wire name of the first navigation field that stands for a relationship, or the name of the
relationship itself if the record's type has none. -/
def expansionKey (registry : Registry) (record : FieldList) (relationship : String) : String :=
  ((record.entitySet.bind registry.type?).bind fun type =>
    (type.fields.find? fun field => field.relationship? = some relationship).map
      (·.wireName)).getD relationship

/-- An expansion appears under the wire name of the first field of the record's type that stands for
its relationship, and under the name of the relationship if there is no such field. -/
theorem expansionKey_eq_iff {registry : Registry} {record : FieldList} {relationship key : String} :
    expansionKey registry record relationship = key ↔
      (∃ type ∈ record.entitySet.bind registry.type?,
        ∃ field ∈ type.fields.find? (fun field => field.relationship? = some relationship),
          field.wireName = key) ∨
      (∀ type ∈ record.entitySet.bind registry.type?, ∀ field ∈ type.fields,
        field.relationship? ≠ some relationship) ∧ relationship = key := by
  rw [expansionKey]
  cases record.entitySet.bind registry.type? with
  | none => simp
  | some type =>
      cases hfield : type.fields.find? fun field => field.relationship? = some relationship with
      | none => simpa [hfield] using fun _ => List.find?_eq_none.1 hfield
      | some field =>
          have hstands : field.relationship? = some relationship := by
            simpa using List.find?_some hfield
          have hmem := List.mem_of_find?_eq_some hfield
          simpa [hfield] using fun hnone => absurd hstands (hnone field hmem)

mutual

/-- Expands one term on a field list, with the capability of the set it comes from. -/
def expandTerm (registry : Registry) (capability : Capability) (set : String) (record : FieldList) :
    Term → Journal Event FieldList
  | .mk item options terms => do
    Journal.note (.asked set item.name item.nestedOption)
    match capability record item.name item.nestedOption with
    | none => do
      Journal.note (.unresolved item.name record.entitySet)
      pure record
    | some (.one related) => do
      let nested ← expandTerms registry (registry.capability related.type.name) related.type.name
        (related.introspect (options.expand.map (·.name))) terms
      pure (record.append (expansionKey registry record item.name)
        (.nested (nested.select options.select)))
    | some (.many related) => do
      let nested ← Journal.traverse
        (fun r : Record => expandTerms registry (registry.capability r.type.name) r.type.name
          (r.introspect (options.expand.map (·.name))) terms)
        (window related options.skip options.top)
      pure (record.append (expansionKey registry record item.name)
        (.nestedList (nested.map (·.select options.select))))

/-- Expands several terms on a field list, one after the other. -/
def expandTerms (registry : Registry) (capability : Capability) (set : String)
    (record : FieldList) : List Term → Journal Event FieldList
  | [] => pure record
  | term :: rest => do
    let expanded ← expandTerm registry capability set record term
    expandTerms registry capability set expanded rest

end

/-- The field list of a record with some items expanded by the capability of its own set. -/
def Record.expanded (registry : Registry) (record : Record) (items : List ExpandItem) :
    Journal Event FieldList :=
  expandTerms registry (registry.capability record.type.name) record.type.name
    (record.introspect (items.map (·.name))) (items.map Term.ofItem)

end OData
