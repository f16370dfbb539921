/-
How deep records stand inside each other.

The depth of a field list is the greatest number of expanded values around each other in it: none if
every field is plain or absent, and one more for each step into a record or into a list of records.

* `Value.depth`, `FieldList.depth` — the depth of a value and of a field list;
* `FieldList.depth_le_iff` — a bound for the depth is a bound for every field;
* `FieldList.depth_append_le`, `FieldList.depth_narrow_le`, `FieldList.depth_project_le` — what an
  added field, leaving fields out and a projection do to the depth.
-/

import OData.Proofs.Field.Twice

set_option relaxedAutoImplicit false
set_option autoImplicit false

namespace OData

mutual

/-- The number of expanded values around each other, this one included. -/
def Value.depth : Value → Nat
  | .scalar _ => 0
  | .nested record => record.depth + 1
  | .nestedList records => FieldList.listDepth records + 1
  | .absent => 0

/-- The greatest depth of a field. -/
def FieldList.depth : FieldList → Nat
  | .mk _ fields => FieldList.fieldsDepth fields

/-- The greatest depth of some records. -/
def FieldList.listDepth : List FieldList → Nat
  | [] => 0
  | record :: rest => max record.depth (FieldList.listDepth rest)

/-- The greatest depth of some fields. -/
def FieldList.fieldsDepth : List (String × Value) → Nat
  | [] => 0
  | (_, value) :: rest => max value.depth (FieldList.fieldsDepth rest)

end

theorem Value.depth_of_not_isExpanded {value : Value} (h : value.isExpanded = false) :
    value.depth = 0 := by
  cases value with
  | scalar | absent => rw [depth]
  | nested | nestedList => cases h

namespace FieldList

theorem listDepth_le_iff {records : List FieldList} {n : Nat} :
    listDepth records ≤ n ↔ ∀ record ∈ records, record.depth ≤ n := by
  induction records with
  | nil => simp [listDepth]
  | cons record rest ih => rw [listDepth, Nat.max_le, ih, List.forall_mem_cons]

theorem fieldsDepth_le_iff {fields : Ordered Value} {n : Nat} :
    fieldsDepth fields ≤ n ↔ ∀ field ∈ fields, field.2.depth ≤ n := by
  induction fields with
  | nil => simp [fieldsDepth]
  | cons field rest ih => rw [fieldsDepth, Nat.max_le, ih, List.forall_mem_cons]

/-- A bound for the depth is a bound for every field. -/
theorem depth_le_iff {record : FieldList} {n : Nat} :
    record.depth ≤ n ↔ ∀ field ∈ record.fields, field.2.depth ≤ n := by
  cases record with
  | mk set fields =>
      rw [depth]
      exact fieldsDepth_le_iff

/-- A field that is put at the end adds no more than its own depth. -/
theorem depth_append_le {record : FieldList} {value : Value} {n : Nat} (hrecord : record.depth ≤ n)
    (hvalue : value.depth ≤ n) (key : String) : (record.append key value).depth ≤ n := by
  rw [depth_le_iff] at hrecord ⊢
  intro field hfield
  rw [fields_append, Ordered.moveToEnd] at hfield
  rcases Ordered.mem_of_mem_insert hfield with rfl | hfield
  · exact hvalue
  · exact hrecord field ((Ordered.erase_sublist key record.fields).subset hfield)

end FieldList

/-! ### Projection -/

/-- A value is no deeper for what is done to its records if none of them is. -/
theorem Value.depth_mapRecords_le {f : FieldList → FieldList} {value : Value}
    (h : ∀ record ∈ value.records, (f record).depth ≤ record.depth) :
    (value.mapRecords f).depth ≤ value.depth := by
  cases value with
  | nested record =>
      rw [mapRecords, depth, depth]
      exact Nat.succ_le_succ (h record List.mem_cons_self)
  | nestedList records =>
      rw [mapRecords, depth, depth]
      refine Nat.succ_le_succ (FieldList.listDepth_le_iff.2 fun mapped hmapped => ?_)
      obtain ⟨record, hrecord, rfl⟩ := List.mem_map.1 hmapped
      have hlist : record.depth ≤ FieldList.listDepth records :=
        FieldList.listDepth_le_iff.1 (Nat.le_refl _) record hrecord
      exact Nat.le_trans (h record hrecord) hlist
  | scalar | absent => exact Nat.le_refl _

/-- A record is no deeper for what is left out of it. -/
theorem FieldList.depth_narrow_le {keep : String → Bool → Bool}
    {f : String → FieldList → FieldList} {record : FieldList}
    (h : ∀ field ∈ record.fields, ∀ inner ∈ field.2.records,
      (f field.1 inner).depth ≤ inner.depth) :
    (record.narrow keep f).depth ≤ record.depth := by
  rw [depth_le_iff]
  intro field hfield
  obtain ⟨original, hkept, rfl⟩ := List.mem_map.1 hfield
  have hmem : original ∈ record.fields := (List.mem_filter.1 hkept).1
  have hvalue : original.2.depth ≤ record.depth := depth_le_iff.1 (Nat.le_refl _) original hmem
  exact Nat.le_trans (Value.depth_mapRecords_le (h original hmem)) hvalue

/-- Projection makes nothing deeper. -/
theorem FieldList.depth_project_le (record : FieldList) (paths : List Path) :
    (record.project paths).depth ≤ record.depth := by
  induction record using recordInduction generalizing paths with
  | step record ih =>
      rw [project_eq_narrow]
      exact depth_narrow_le fun field hfield inner hinner => ih field hfield inner hinner _

theorem FieldList.depth_select_le (record : FieldList) (texts : List String) :
    (record.select texts).depth ≤ record.depth :=
  record.depth_project_le (selectedPaths texts)

end OData
