/-
The records inside a record.

An expanded value holds one record or several, and these hold expanded values in turn.  What is true
of a record as soon as it is true of the records inside it is true of every record.  Whatever only
leaves fields out and does something to the records inside the others changes neither the name of a
field nor whether it is expanded, so that doing two such things comes to doing one.

Main definitions:

* `Value.records`, `Value.mapRecords` — the records of a value, and a value with something done to
  each of them;
* `FieldList.narrow` — a record with some of its fields and with something done to the records inside
  them.

Main results:

* `FieldList.recordInduction` — **induction on the records inside a record**;
* `FieldList.narrow_congr` — only what is kept, and what is done to the records inside, matters;
* `FieldList.narrow_narrow` — narrowing twice.
-/

import OData.Field.Value

set_option relaxedAutoImplicit false
set_option autoImplicit false

namespace OData

/-! ### The records of a value -/

/-- The records that a value shows. -/
def Value.records : Value → List FieldList
  | nested record => [record]
  | nestedList records => records
  | _ => []

namespace Value

/-- A value with something done to each of its records. -/
def mapRecords (f : FieldList → FieldList) : Value → Value
  | nested record => nested (f record)
  | nestedList records => nestedList (records.map f)
  | scalar s => scalar s
  | absent => absent

@[simp] theorem isExpanded_mapRecords (f : FieldList → FieldList) (value : Value) :
    (value.mapRecords f).isExpanded = value.isExpanded := by
  cases value <;> rfl

@[simp] theorem mapRecords_id (value : Value) : value.mapRecords id = value := by
  cases value with
  | nestedList records => rw [mapRecords, List.map_id]
  | nested | scalar | absent => rfl

theorem mapRecords_mapRecords (f g : FieldList → FieldList) (value : Value) :
    (value.mapRecords f).mapRecords g = value.mapRecords (g ∘ f) := by
  cases value with
  | nestedList records => rw [mapRecords, mapRecords, mapRecords, List.map_map]
  | nested | scalar | absent => rfl

theorem mapRecords_congr {f g : FieldList → FieldList} {value : Value}
    (h : ∀ record ∈ value.records, f record = g record) :
    value.mapRecords f = value.mapRecords g := by
  cases value with
  | nested record => exact congrArg nested (h record List.mem_cons_self)
  | nestedList records => exact congrArg nestedList (List.map_congr_left h)
  | scalar | absent => rfl

theorem sizeOf_lt_of_mem_records {record : FieldList} {value : Value} (h : record ∈ value.records) :
    sizeOf record < sizeOf value := by
  cases value with
  | nested inner =>
      rw [List.mem_singleton.1 h, nested.sizeOf_spec]
      omega
  | nestedList records =>
      have hlt := List.sizeOf_lt_of_mem (show record ∈ records from h)
      rw [nestedList.sizeOf_spec]
      omega
  | scalar | absent => cases h

end Value

namespace FieldList

/-! ### Induction -/

theorem sizeOf_lt_of_mem_fields {record : FieldList} {field : String × Value}
    (h : field ∈ record.fields) : sizeOf field.2 < sizeOf record := by
  obtain ⟨set, fields⟩ := record
  obtain ⟨key, value⟩ := field
  have hfield := List.sizeOf_lt_of_mem (show (key, value) ∈ fields from h)
  have hvalue : sizeOf value < sizeOf (key, value) := by
    rw [Prod.mk.sizeOf_spec]
    omega
  show sizeOf value < sizeOf (mk set fields)
  rw [mk.sizeOf_spec]
  omega

/-- **Induction on the records inside a record.** -/
@[elab_as_elim]
theorem recordInduction {motive : FieldList → Prop}
    (step : ∀ record : FieldList,
      (∀ field ∈ record.fields, ∀ inner ∈ field.2.records, motive inner) → motive record)
    (record : FieldList) : motive record :=
  step record fun _ hfield inner hinner =>
    have := Value.sizeOf_lt_of_mem_records hinner
    have := sizeOf_lt_of_mem_fields hfield
    recordInduction step inner
termination_by sizeOf record

/-! ### Narrowing -/

/-- A record with those of its fields that are kept by their names and by whether they are expanded,
and with something done to the records inside them. -/
def narrow (keep : String → Bool → Bool) (f : String → FieldList → FieldList)
    (record : FieldList) : FieldList :=
  record.withFields <| (record.fields.filter fun field => keep field.1 field.2.isExpanded).map
    fun field => (field.1, field.2.mapRecords (f field.1))

theorem narrow_congr {keep keep' : String → Bool → Bool} {f g : String → FieldList → FieldList}
    {record : FieldList} (hkeep : ∀ name expanded, keep name expanded = keep' name expanded)
    (h : ∀ field ∈ record.fields, ∀ inner ∈ field.2.records, f field.1 inner = g field.1 inner) :
    record.narrow keep f = record.narrow keep' g := by
  obtain rfl : keep = keep' := funext fun name => funext (hkeep name)
  refine congrArg record.withFields (List.map_congr_left fun field hfield => ?_)
  have hmem : field ∈ record.fields := (List.mem_filter.1 hfield).1
  rw [Value.mapRecords_congr (h field hmem)]

/-- Narrowing twice leaves what is kept both times, and does one thing after the other to the records
inside it. -/
theorem narrow_narrow (keep keep' : String → Bool → Bool) (f g : String → FieldList → FieldList)
    (record : FieldList) :
    (record.narrow keep f).narrow keep' g
      = record.narrow (fun name expanded => keep name expanded && keep' name expanded)
          fun name => g name ∘ f name := by
  simp only [narrow, withFields, fields_mk, entitySet_mk, List.filter_map, List.map_map,
    List.filter_filter, Function.comp_def, Value.isExpanded_mapRecords,
    Value.mapRecords_mapRecords, Bool.and_comm]

end FieldList

end OData
