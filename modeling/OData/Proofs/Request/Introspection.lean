/-
What introspection lists.

The field list of a record holds the written fields under their wire names.  A wire name that two
fields share stands where the first of them is declared and has the value of the last; as long as
wire names are distinct, each written field has the value that the record gives it.

* `Record.written` — the names and values that are listed, one for each written field;
* `Record.declaredKeys` — the wire names of the written fields, each at its first position;
* `Record.keys_introspect`, `Record.get?_introspect` — the names and the values of a field list.
-/

import OData.Model.Record

set_option relaxedAutoImplicit false
set_option autoImplicit false

namespace OData.Record

/-- The wire names of the written fields with their values, in the order of declaration. -/
def written (record : Record) (asked : List String) : List (String × Value) :=
  (record.type.fields.filter (isWritten asked)).map fun field =>
    (field.wireName, (record.value? field.name).getD .absent)

/-- The wire names of the written fields in the order of declaration, each where it first occurs. -/
def declaredKeys (record : Record) (asked : List String) : List String :=
  ((record.type.fields.filter (isWritten asked)).map (·.wireName)).eraseDups

theorem introspect_eq (record : Record) (asked : List String) :
    record.introspect asked = .ofPairs (some record.type.name) (record.written asked) := by
  -- a list that has been started goes on in the same way
  have run : ∀ (fields : List Field) (list : FieldList),
      fields.foldl
          (fun list field => list.insert field.wireName ((record.value? field.name).getD .absent))
          list
        = .mk list.entitySet
          ((fields.map fun field =>
              (field.wireName, (record.value? field.name).getD .absent)).foldl
            (fun es p => Ordered.insert p.1 p.2 es) list.fields) := by
    intro fields
    induction fields with
    | nil => exact fun list => by cases list; rfl
    | cons field fields ih => exact fun list => ih _
  exact run _ _

@[simp] theorem entitySet_introspect (record : Record) (asked : List String) :
    (record.introspect asked).entitySet = some record.type.name := by
  rw [introspect_eq]
  rfl

theorem fields_introspect (record : Record) (asked : List String) :
    (record.introspect asked).fields = Ordered.ofList (record.written asked) := by
  rw [introspect_eq]
  rfl

theorem distinct_introspect (record : Record) (asked : List String) :
    (record.introspect asked).fields.Distinct := by
  rw [fields_introspect]
  exact Ordered.distinct_ofList _

theorem keys_introspect (record : Record) (asked : List String) :
    (record.introspect asked).keys = record.declaredKeys asked := by
  rw [FieldList.keys, fields_introspect, Ordered.keys_ofList, written, List.map_map, declaredKeys]
  rfl

/-- Different wire names: each written field has the value that the record gives it. -/
theorem get?_introspect {record : Record} {asked : List String} {field : Field}
    (hnames : (record.type.fields.map (·.wireName)).Nodup) (hfield : field ∈ record.type.fields)
    (hwritten : isWritten asked field) :
    (record.introspect asked).get? field.wireName
      = some ((record.value? field.name).getD .absent) := by
  -- no two fields share a wire name, so that none is written over
  have hdistinct : Ordered.Distinct (record.written asked) := by
    rw [Ordered.Distinct, Ordered.keys, written, List.map_map]
    exact hnames.sublist (List.filter_sublist.map _)
  rw [FieldList.get?, fields_introspect, Ordered.ofList_eq_self hdistinct]
  exact Ordered.get?_of_mem hdistinct
    (List.mem_map_of_mem (List.mem_filter.2 ⟨hfield, hwritten⟩))

end OData.Record
