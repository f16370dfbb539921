/-
Expansion as steps on a field list.

Expanding an item either leaves the field list alone, if the capability does not resolve it, or puts
the related records at its end, under the expansion key.  Each of the related records is answered
like a request of its own, with the options in the item's parentheses.  The order of a field list
after several steps, and what they leave alone, follow by induction on the items.

Main definitions:

* `Related.answer` — related records, answered with the options in parentheses;
* `FieldList.withExpansion`, `FieldList.expandItem` — one step;
* `resolvedItems` — the items that are resolved in a run, and `expansionKeys`, where their records
  appear.

Main results:

* `value_expandTerm` — expanding a term is a step;
* `keys_expandItems` — **what is expanded stands at the end, in the order of the items**;
* `get?_expandItems_of_notMem` — everything else keeps its value.
-/

import Mathlib.Data.List.Dedup
import OData.Proofs.Request.Introspection
import OData.Request.Answer

set_option relaxedAutoImplicit false
set_option autoImplicit false

namespace OData

open Query

variable (registry : Registry) (capability : Capability)

/-! ### One step -/

/-- The value that shows related records, each answered with some options. -/
def Related.answer (options : Options) : Related → Value
  | .one record => .nested (record.answer registry options).value
  | .many records => .nestedList (answerAll registry records options).value

theorem Related.isExpanded_answer (options : Options) (related : Related) :
    (related.answer registry options).isExpanded = true := by
  cases related <;> rfl

/-- The field list with the value of a relationship, if there is one, at its end. -/
def FieldList.withExpansion (record : FieldList) (relationship : String) :
    Option Value → FieldList
  | none => record
  | some value => record.append (expansionKey registry record relationship) value

/-- The field list after an item: as it was, or with the related records at its end. -/
def FieldList.expandItem (record : FieldList) (item : ExpandItem) : FieldList :=
  record.withExpansion registry item.name
    ((capability record item.name item.nestedOption).map (·.answer registry item.nested))

variable {registry capability}

theorem FieldList.expandItem_of_eq_none {record : FieldList} {item : ExpandItem}
    (h : capability record item.name item.nestedOption = none) :
    record.expandItem registry capability item = record := by
  rw [expandItem, h]
  rfl

theorem FieldList.expandItem_of_eq_some {record : FieldList} {item : ExpandItem} {related : Related}
    (h : capability record item.name item.nestedOption = some related) :
    record.expandItem registry capability item
      = record.append (expansionKey registry record item.name)
          (related.answer registry item.nested) := by
  rw [expandItem, h]
  rfl

variable (registry capability)

/-- A record is answered by expanding it and then projecting it. -/
theorem Record.value_answer (record : Record) (options : Options) :
    (record.answer registry options).value
      = (record.expanded registry options.expand).value.select options.select := rfl

/-- **Expanding a term is a step**: the terms in its parentheses are expanded as part of answering
the related records. -/
theorem value_expandTerm (set : String) (record : FieldList) (item : ExpandItem) :
    (expandTerm registry capability set record (Term.ofItem item)).value
      = record.expandItem registry capability item := by
  rw [Term.ofItem_eq, expandTerm, Journal.value_bind]
  cases h : capability record item.name item.nestedOption with
  | none =>
      rw [FieldList.expandItem_of_eq_none h]
      rfl
  | some related =>
      rw [FieldList.expandItem_of_eq_some h]
      cases related with
      | one related => rfl
      | many related =>
          rw [Related.answer, answerAll]
          simp only [Journal.value_bind, Journal.value_traverse, Journal.value_pure, List.map_map]
          rfl

theorem value_expandTerms (set : String) (record : FieldList) (items : List ExpandItem) :
    (expandTerms registry capability set record (items.map Term.ofItem)).value
      = items.foldl (FieldList.expandItem registry capability) record := by
  induction items generalizing record with
  | nil => rfl
  | cons item items ih =>
      rw [List.map_cons, expandTerms, Journal.value_bind, value_expandTerm, ih, List.foldl_cons]

theorem Record.value_expanded (record : Record) (items : List ExpandItem) :
    (record.expanded registry items).value
      = items.foldl (FieldList.expandItem registry (registry.capability record.type.name))
          (record.introspect (items.map (·.name))) :=
  value_expandTerms ..

/-! ### What steps keep -/

@[simp] theorem FieldList.entitySet_expandItem (record : FieldList) (item : ExpandItem) :
    (record.expandItem registry capability item).entitySet = record.entitySet := by
  cases h : capability record item.name item.nestedOption with
  | none => rw [expandItem_of_eq_none h]
  | some related => rw [expandItem_of_eq_some h, entitySet_append]

theorem entitySet_expandItems (record : FieldList) (items : List ExpandItem) :
    (items.foldl (FieldList.expandItem registry capability) record).entitySet
      = record.entitySet := by
  induction items generalizing record with
  | nil => rfl
  | cons item items ih => rw [List.foldl_cons, ih, FieldList.entitySet_expandItem]

theorem FieldList.distinct_expandItem {record : FieldList} (hd : record.fields.Distinct)
    (item : ExpandItem) : (record.expandItem registry capability item).fields.Distinct := by
  cases h : capability record item.name item.nestedOption with
  | none => rwa [expandItem_of_eq_none h]
  | some related =>
      rw [expandItem_of_eq_some h, fields_append]
      exact hd.moveToEnd _ _

theorem distinct_expandItems {record : FieldList} (hd : record.fields.Distinct)
    (items : List ExpandItem) :
    (items.foldl (FieldList.expandItem registry capability) record).fields.Distinct := by
  induction items generalizing record with
  | nil => exact hd
  | cons item items ih => exact ih (FieldList.distinct_expandItem registry capability hd item)

/-- The expansion key depends on nothing but the entity set of the field list. -/
theorem expansionKey_congr {record record' : FieldList} (h : record.entitySet = record'.entitySet)
    (relationship : String) :
    expansionKey registry record relationship = expansionKey registry record' relationship := by
  rw [expansionKey, h, expansionKey]

/-! ### Runs -/

/-- The items that the capability resolves when they are expanded one after the other. -/
def resolvedItems : FieldList → List ExpandItem → List ExpandItem
  | _, [] => []
  | record, item :: items =>
    let rest := resolvedItems (record.expandItem registry capability item) items
    if (capability record item.name item.nestedOption).isSome then item :: rest else rest

/-- The names under which the records of the resolved items appear, in the order of the items. -/
def expansionKeys (record : FieldList) (items : List ExpandItem) : List String :=
  (resolvedItems registry capability record items).map
    fun item => expansionKey registry record item.name

@[simp] theorem expansionKeys_nil (record : FieldList) :
    expansionKeys registry capability record [] = [] := rfl

variable {registry capability}

theorem expansionKeys_cons_of_eq_none {record : FieldList} {item : ExpandItem}
    (h : capability record item.name item.nestedOption = none) (items : List ExpandItem) :
    expansionKeys registry capability record (item :: items)
      = expansionKeys registry capability record items := by
  simp [expansionKeys, resolvedItems, h, FieldList.expandItem_of_eq_none h]

theorem expansionKeys_cons_of_eq_some {record : FieldList} {item : ExpandItem} {related : Related}
    (h : capability record item.name item.nestedOption = some related) (items : List ExpandItem) :
    expansionKeys registry capability record (item :: items)
      = expansionKey registry record item.name
        :: expansionKeys registry capability (record.expandItem registry capability item) items := by
  have hkey : ∀ name, expansionKey registry (record.expandItem registry capability item) name
      = expansionKey registry record name :=
    expansionKey_congr registry (FieldList.entitySet_expandItem registry capability record item)
  simp [expansionKeys, resolvedItems, h, hkey]

theorem FieldList.keys_append {record : FieldList} (hd : record.fields.Distinct) (key : String)
    (value : Value) : (record.append key value).keys = record.keys.filter (· ≠ key) ++ [key] :=
  Ordered.keys_moveToEnd hd key value

theorem FieldList.get?_append {record : FieldList} (hd : record.fields.Distinct) (key k : String)
    (value : Value) :
    (record.append key value).get? k = if k = key then some value else record.get? k :=
  Ordered.get?_moveToEnd hd key k value

/-- **What is expanded stands at the end, in the order of the items**, and the other names stay in
theirs.  A name that several items share counts at the last of them. -/
theorem keys_expandItems {record : FieldList} (hd : record.fields.Distinct)
    (items : List ExpandItem) :
    (items.foldl (FieldList.expandItem registry capability) record).keys
      = record.keys.filter (· ∉ expansionKeys registry capability record items)
        ++ (expansionKeys registry capability record items).dedup := by
  induction items generalizing record with
  | nil => simp
  | cons item items ih =>
      rw [List.foldl_cons, ih (FieldList.distinct_expandItem registry capability hd item)]
      cases h : capability record item.name item.nestedOption with
      | none =>
          rw [expansionKeys_cons_of_eq_none h, FieldList.expandItem_of_eq_none h]
      | some related =>
          rw [expansionKeys_cons_of_eq_some h]
          -- Only the names of this field list matter from here on, not those of the next one.
          generalize expansionKeys registry capability _ items = later
          rw [FieldList.expandItem_of_eq_some h, FieldList.keys_append hd]
          generalize expansionKey registry record item.name = key
          have hfilter : (record.keys.filter (· ≠ key)).filter (· ∉ later)
              = record.keys.filter (· ∉ key :: later) := by
            rw [List.filter_filter]
            refine List.filter_congr fun k _ => ?_
            simp [Bool.and_comm]
          rw [List.filter_append, hfilter]
          by_cases hkey : key ∈ later
          · simp [List.dedup_cons_of_mem hkey, hkey]
          · simp [List.dedup_cons_of_notMem hkey, hkey]

/-- Everything that is not expanded keeps its value. -/
theorem get?_expandItems_of_notMem {record : FieldList} (hd : record.fields.Distinct)
    {items : List ExpandItem} {key : String}
    (hkey : key ∉ expansionKeys registry capability record items) :
    (items.foldl (FieldList.expandItem registry capability) record).get? key
      = record.get? key := by
  induction items generalizing record with
  | nil => rfl
  | cons item items ih =>
      have hd' := FieldList.distinct_expandItem registry capability hd item
      cases h : capability record item.name item.nestedOption with
      | none =>
          rw [expansionKeys_cons_of_eq_none h] at hkey
          rw [List.foldl_cons, FieldList.expandItem_of_eq_none h, ih hd hkey]
      | some related =>
          rw [expansionKeys_cons_of_eq_some h, List.mem_cons, not_or] at hkey
          rw [List.foldl_cons, ih hd' hkey.2, FieldList.expandItem_of_eq_some h,
            FieldList.get?_append hd, if_neg hkey.1]

/-- What stands under an expansion key is expanded. -/
theorem get?_expandItems_of_mem {record : FieldList} (hd : record.fields.Distinct)
    {items : List ExpandItem} {key : String}
    (hkey : key ∈ expansionKeys registry capability record items) :
    ∃ value, (items.foldl (FieldList.expandItem registry capability) record).get? key = some value ∧
      value.isExpanded = true := by
  induction items generalizing record with
  | nil => simp at hkey
  | cons item items ih =>
      have hd' := FieldList.distinct_expandItem registry capability hd item
      cases h : capability record item.name item.nestedOption with
      | none =>
          rw [expansionKeys_cons_of_eq_none h] at hkey
          rw [List.foldl_cons, FieldList.expandItem_of_eq_none h]
          exact ih hd hkey
      | some related =>
          rw [expansionKeys_cons_of_eq_some h] at hkey
          rw [List.foldl_cons]
          -- only the last item with this key counts
          by_cases hlater : key ∈ expansionKeys registry capability
              (record.expandItem registry capability item) items
          · exact ih hd' hlater
          · have hthis : key = expansionKey registry record item.name :=
              (List.mem_cons.1 hkey).resolve_right hlater
            refine ⟨_, ?_, Related.isExpanded_answer registry item.nested related⟩
            rw [get?_expandItems_of_notMem hd' hlater, FieldList.expandItem_of_eq_some h,
              FieldList.get?_append hd, if_pos hthis]

end OData
