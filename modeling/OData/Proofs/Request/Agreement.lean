/-
Registries that agree on what a query asks for.

A request looks at a registry in two ways only: expansion asks the capabilities for the relationships
that the terms of the query name, at whatever level, and it looks up types to find the names under
which their records appear.  Registries that agree on these answer the request alike, with the same
events on the way, whatever else they hold and however their relationships run in circles.

* `Registry.AgreeOn` — registries with the same types that resolve some relationships alike;
* `Registry.AgreeOn.expandTerm_eq` — **a term is expanded alike** if they agree on all names in it;
* `Registry.AgreeOn.answer_eq`, `Registry.AgreeOn.answerAll_eq` — requests for one record and for
  several.
-/

import OData.Proofs.Query.Level
import OData.Request.Answer

set_option relaxedAutoImplicit false
set_option autoImplicit false

namespace OData

open Query

/-- Registries with the same types, the capabilities of which resolve the relationships of some
names alike. -/
structure Registry.AgreeOn (names : String → Prop) (registry other : Registry) : Prop where
  type?_eq : ∀ set, registry.type? set = other.type? set
  capability_eq : ∀ set name, names name → ∀ record text,
    registry.capability set record name text = other.capability set record name text

namespace Registry.AgreeOn

variable {names : String → Prop} {registry other : Registry}

theorem expansionKey_eq (h : AgreeOn names registry other) (record : FieldList)
    (relationship : String) :
    expansionKey registry record relationship = expansionKey other record relationship := by
  have htypes : registry.type? = other.type? := funext h.type?_eq
  rw [expansionKey, htypes, expansionKey]

/-- Terms that are expanded alike are so one after the other. -/
theorem expandTerms_eq {set : String} {terms : List Term}
    (h : ∀ term ∈ terms, ∀ record,
      expandTerm registry (registry.capability set) set record term
        = expandTerm other (other.capability set) set record term) (record : FieldList) :
    expandTerms registry (registry.capability set) set record terms
      = expandTerms other (other.capability set) set record terms := by
  induction terms generalizing record with
  | nil => rfl
  | cons term rest ih =>
      rw [expandTerms, expandTerms, h term List.mem_cons_self]
      exact congrArg _ (funext (ih fun term hterm => h term (List.mem_cons_of_mem _ hterm)))

/-- **A term is expanded alike** by registries that agree on the names in it, whichever sets its
records come from. -/
theorem expandTerm_eq (h : AgreeOn names registry other) (item : ExpandItem)
    (hname : names item.name)
    (hinside : ∀ nested, item.nested.HasItem nested → names nested.name) (set : String)
    (record : FieldList) :
    expandTerm registry (registry.capability set) set record (Term.ofItem item)
      = expandTerm other (other.capability set) set record (Term.ofItem item) := by
  -- the records that a capability leads to come from any set, but the terms inside are smaller
  induction item using Term.ofItem.induct generalizing set record with
  | case1 item ih =>
      have hterms : ∀ related : Record,
          related.expanded registry item.nested.expand
            = related.expanded other item.nested.expand := by
        intro related
        refine expandTerms_eq (fun term hterm record => ?_) _
        obtain ⟨nested, hnested, rfl⟩ := List.mem_map.1 hterm
        exact ih ⟨nested, hnested⟩ (hinside nested (.here hnested))
          (fun inner hinner => hinside inner (.inside hnested hinner)) _ _
      simp only [Record.expanded] at hterms
      simp only [Term.ofItem_eq, expandTerm, h.capability_eq set item.name hname, h.expansionKey_eq,
        hterms]

theorem expanded_eq (h : AgreeOn names registry other) {options : Options}
    (hoptions : ∀ item, options.HasItem item → names item.name) (record : Record) :
    record.expanded registry options.expand = record.expanded other options.expand := by
  refine expandTerms_eq (fun term hterm record => ?_) _
  obtain ⟨item, hitem, rfl⟩ := List.mem_map.1 hterm
  exact h.expandTerm_eq item (hoptions item (.here hitem))
    (fun nested hnested => hoptions nested (.inside hitem hnested)) _ _

/-- A request for one record is answered alike. -/
theorem answer_eq (h : AgreeOn names registry other) {options : Options}
    (hoptions : ∀ item, options.HasItem item → names item.name) (record : Record) :
    record.answer registry options = record.answer other options := by
  rw [Record.answer, h.expanded_eq hoptions, Record.answer]

/-- A request for several records is answered alike. -/
theorem answerAll_eq (h : AgreeOn names registry other) {options : Options}
    (hoptions : ∀ item, options.HasItem item → names item.name) (records : List Record) :
    answerAll registry records options = answerAll other records options := by
  rw [answerAll, funext (h.answer_eq hoptions), answerAll]

end Registry.AgreeOn

end OData
