/-
The order of an answer, and what a request leaves alone.

Answering a request rewrites one field list three times: introspection lists the declared fields,
expansion moves what it resolves to the end, and projection takes fields out.  Together they give a
law for the whole answer, whatever the capabilities of the registry do, and however many of the
terms of the query they resolve.

* `Record.movedKeys` — the names under which the records of the resolved items appear;
* `Record.keys_expanded`, `Record.get?_expanded_of_notMem` — a record with expansions;
* `Record.entitySet_answer` — an answer keeps the entity set of its record;
* `Record.keys_answer` — **the order of an answer, and its frame**.
-/

import OData.Proofs.Request.Expansion
import OData.Proofs.Request.Projection

set_option relaxedAutoImplicit false
set_option autoImplicit false

namespace OData.Record

open Query

variable (registry : Registry) (record : Record)

/-- The names under which the records of the resolved items appear, in the order of the items. -/
def movedKeys (items : List ExpandItem) : List String :=
  expansionKeys registry (registry.capability record.type.name)
    (record.introspect (items.map (·.name))) items

theorem distinct_expanded (items : List ExpandItem) :
    (record.expanded registry items).value.fields.Distinct := by
  rw [value_expanded]
  exact distinct_expandItems _ _ (distinct_introspect _ _) items

/-- The declared fields that are not moved, and then the moved ones. -/
theorem keys_expanded (items : List ExpandItem) :
    (record.expanded registry items).value.keys
      = (record.declaredKeys (items.map (·.name))).filter (· ∉ record.movedKeys registry items)
        ++ (record.movedKeys registry items).dedup := by
  rw [value_expanded, keys_expandItems (distinct_introspect _ _), keys_introspect, movedKeys]

variable {registry record}

theorem get?_expanded_of_notMem {items : List ExpandItem} {key : String}
    (h : key ∉ record.movedKeys registry items) :
    (record.expanded registry items).value.get? key
      = (record.introspect (items.map (·.name))).get? key := by
  rw [value_expanded, get?_expandItems_of_notMem (distinct_introspect _ _) h]

theorem get?_expanded_of_mem {items : List ExpandItem} {key : String}
    (h : key ∈ record.movedKeys registry items) :
    ∃ value, (record.expanded registry items).value.get? key = some value ∧
      value.isExpanded = true := by
  rw [value_expanded]
  exact get?_expandItems_of_mem (distinct_introspect _ _) h

/-- A single item that is resolved is shown under its expansion key. -/
theorem get?_expanded_singleton {item : ExpandItem} {related : Related}
    (h : registry.capability record.type.name (record.introspect [item.name]) item.name
      item.nestedOption = some related) :
    (record.expanded registry [item]).value.get?
        (expansionKey registry (record.introspect [item.name]) item.name)
      = some (related.answer registry item.nested) := by
  rw [value_expanded, List.foldl_cons, List.foldl_nil, List.map_singleton,
    FieldList.expandItem_of_eq_some h, FieldList.get?_append (distinct_introspect _ _), if_pos rfl]

variable (registry record)

/-- An answer says which entity set its record comes from, whatever the query is. -/
theorem entitySet_answer (options : Options) :
    (record.answer registry options).value.entitySet = some record.type.name := by
  rw [value_answer, FieldList.entitySet_select, value_expanded, entitySet_expandItems,
    entitySet_introspect]

/-- A request without options is answered by introspection alone. -/
theorem value_answer_empty : (record.answer registry {}).value = record.introspect [] := by
  rw [value_answer, value_expanded]
  exact FieldList.project_nil _

/-- An answer shows what is selected, what is moved, and what is expanded from the start. -/
theorem any_isKept_iff (options : Options) {key : String}
    (hkey : key ∈ (record.expanded registry options.expand).value.keys) :
    ((record.expanded registry options.expand).value.get? key).any
        (isKept (selectedPaths options.select) key) = true ↔
      selects (selectedPaths options.select) key = true ∨
        key ∈ record.movedKeys registry options.expand ∨
        ((record.introspect (options.expand.map (·.name))).get? key).any Value.isExpanded
          = true := by
  obtain ⟨value, hvalue⟩ : ∃ value,
      (record.expanded registry options.expand).value.get? key = some value :=
    FieldList.mem_keys_iff.1 hkey
  rw [hvalue, Option.any_some, isKept, Bool.or_eq_true]
  by_cases hmoved : key ∈ record.movedKeys registry options.expand
  · obtain ⟨_, hget, hexpanded⟩ := get?_expanded_of_mem hmoved
    obtain rfl := Option.some.inj (hvalue.symm.trans hget)
    simp [hmoved, hexpanded]
  · rw [get?_expanded_of_notMem hmoved] at hvalue
    simp [hmoved, hvalue]

/-- **The order of an answer, and its frame.**  The names of an answer are those of the declared
fields less the moved ones, and then the moved ones, less those that the query does not select.  No
name occurs twice, everything that is expanded is kept, with the records in it thinned out by the
paths that lead into them, and what is neither moved nor expanded has the value that introspection
gave it. -/
theorem keys_answer (options : Options) :
    (record.answer registry options).value.keys
        = ((record.declaredKeys (options.expand.map (·.name))).filter
              (· ∉ record.movedKeys registry options.expand)
            ++ (record.movedKeys registry options.expand).dedup).filter
          (fun key => selects (selectedPaths options.select) key ||
            decide (key ∈ record.movedKeys registry options.expand) ||
            ((record.introspect (options.expand.map (·.name))).get? key).any Value.isExpanded) ∧
      (record.answer registry options).value.keys.Nodup ∧
      (∀ key value, (record.expanded registry options.expand).value.get? key = some value →
        value.isExpanded = true →
          (record.answer registry options).value.get? key
            = some (value.thinned (selectedPaths options.select) key)) ∧
      ∀ key value, key ∉ record.movedKeys registry options.expand → value.isExpanded = false →
        ((record.answer registry options).value.get? key = some value ↔
          key ∈ (record.answer registry options).value.keys ∧
            (record.introspect (options.expand.map (·.name))).get? key = some value) := by
  have hd := record.distinct_expanded registry options.expand
  rw [value_answer, FieldList.select]
  refine ⟨?_, FieldList.distinct_project _ hd, fun key value hvalue hexpanded => ?_,
    fun key value hmoved hplain => ?_⟩
  · rw [FieldList.keys_project _ hd, ← keys_expanded]
    refine List.filter_congr fun key hkey => ?_
    rw [Bool.eq_iff_iff, any_isKept_iff registry record options hkey]
    simp [or_assoc]
  · have hkept : isKept (selectedPaths options.select) key value = true := by
      rw [isKept, hexpanded, Bool.or_true]
    rw [FieldList.get?_project _ hd, hvalue, Option.filter_some_pos hkept, Option.map_some]
  · rw [FieldList.mem_keys_iff, FieldList.get?_project _ hd, get?_expanded_of_notMem hmoved]
    generalize (record.introspect (options.expand.map (·.name))).get? key = introspected
    constructor
    · intro hvalue
      obtain ⟨before, hbefore, rfl⟩ := Option.map_eq_some_iff.1 hvalue
      obtain ⟨rfl, -⟩ := Option.filter_eq_some_iff.1 hbefore
      rw [Value.isExpanded_thinned] at hplain
      exact ⟨⟨_, hvalue⟩, by rw [Value.thinned_of_not_isExpanded _ _ hplain]⟩
    · rintro ⟨⟨kept, hkept⟩, rfl⟩
      obtain ⟨before, hbefore, -⟩ := Option.map_eq_some_iff.1 hkept
      obtain ⟨hsame, hshown⟩ := Option.filter_eq_some_iff.1 hbefore
      obtain rfl := Option.some.inj hsame
      rw [hbefore, Option.map_some, Value.thinned_of_not_isExpanded _ _ hplain]

end OData.Record
