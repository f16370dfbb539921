/-
What projection keeps.

A projected field list is the field list less some fields, in the same order, and the records inside
the expanded ones thinned out.  A field stays if it is expanded or if some path selects it; what is
not expanded stays as it is.

* `selects`, `selects_iff` — whether paths keep a field of some name whatever its value;
* `FieldList.keys_project` — the names that are kept;
* `FieldList.get?_project` — the values that are kept.
-/

import OData.Field.Projection

set_option relaxedAutoImplicit false
set_option autoImplicit false

namespace OData

/-- Whether some paths keep a field of some name whatever its value. -/
def selects (paths : List Path) (name : String) : Bool :=
  keepsAll paths || paths.any (·.startsWith name)

/-- A name is selected if no path is given, or if some path begins with a star or with the name in
any case. -/
theorem selects_iff {paths : List Path} {name : String} :
    selects paths name = true ↔
      paths = [] ∨ ∃ first rest, first :: rest ∈ paths ∧
        (first = "*" ∨ Text.lower first.toList = Text.lower name.toList) := by
  simp only [selects, keepsAll, Bool.or_eq_true, List.isEmpty_iff, List.any_eq_true,
    Path.isStar_iff, Path.startsWith_iff, or_assoc]
  refine or_congr_right ⟨?_, ?_⟩
  · rintro (⟨_, hpath, rest, rfl⟩ | ⟨_, hpath, first, rest, rfl, hname⟩)
    · exact ⟨"*", rest, hpath, .inl rfl⟩
    · exact ⟨first, rest, hpath, .inr hname⟩
  · rintro ⟨first, rest, hpath, rfl | hname⟩
    · exact .inl ⟨_, hpath, rest, rfl⟩
    · exact .inr ⟨_, hpath, first, rest, rfl, hname⟩

theorem isEmpty_restsAt (paths : List Path) (name : String) :
    (restsAt name paths).isEmpty = !paths.any (·.startsWith name) := by
  induction paths with
  | nil => rfl
  | cons path paths ih =>
      cases h : path.startsWith name with
      | true => simp [restsAt, h]
      | false => simpa [restsAt, h] using ih

/-! ### Values -/

namespace Value

theorem project_of_not_isExpanded (paths : List Path) {value : Value}
    (h : value.isExpanded = false) : value.project paths = value := by
  cases value with
  | scalar | absent => rw [project]; all_goals nofun
  | nested | nestedList => cases h

@[simp] theorem isExpanded_project (paths : List Path) (value : Value) :
    (value.project paths).isExpanded = value.isExpanded := by
  cases value with
  | nested | nestedList => rw [project]; rfl
  | scalar | absent => rw [project_of_not_isExpanded paths rfl]

/-- What is left of the value of a field of some name. -/
def thinned (paths : List Path) (name : String) (value : Value) : Value :=
  if keepsAll paths || FieldList.projectFields.keepsWhole (restsAt name paths) then value
  else value.project (restsAt name paths)

@[simp] theorem isExpanded_thinned (paths : List Path) (name : String) (value : Value) :
    (value.thinned paths name).isExpanded = value.isExpanded := by
  unfold thinned
  split
  · rfl
  · exact isExpanded_project _ _

theorem thinned_of_not_isExpanded (paths : List Path) (name : String) {value : Value}
    (h : value.isExpanded = false) : value.thinned paths name = value := by
  rw [thinned, project_of_not_isExpanded _ h, ite_self]

end Value

/-! ### Field lists -/

/-- Whether a field of some name and value is kept. -/
def isKept (paths : List Path) (name : String) (value : Value) : Bool :=
  selects paths name || value.isExpanded

namespace FieldList

theorem projectFields_eq {paths : List Path} (h : keepsAll paths = false)
    (fields : Ordered Value) :
    projectFields paths fields
      = (fields.filter fun f => isKept paths f.1 f.2).map
          fun f => (f.1, f.2.thinned paths f.1) := by
  induction fields with
  | nil => rfl
  | cons f fields ih =>
      obtain ⟨name, value⟩ := f
      rw [projectFields, ih, isEmpty_restsAt]
      cases hvalue : value.isExpanded with
      | true => simp [isKept, Value.thinned, h, hvalue]
      | false =>
          cases hname : paths.any (·.startsWith name) with
          | true =>
              simp [isKept, selects, h, hvalue, hname,
                Value.thinned_of_not_isExpanded paths name hvalue]
          | false => simp [isKept, selects, h, hvalue, hname]

/-- Projection filters the fields and thins out what it keeps. -/
theorem fields_project (paths : List Path) (record : FieldList) :
    (record.project paths).fields
      = (record.fields.filter fun f => isKept paths f.1 f.2).map
          fun f => (f.1, f.2.thinned paths f.1) := by
  obtain ⟨set, fields⟩ := record
  rw [project, fields_mk, fields_mk]
  cases h : keepsAll paths with
  | true =>
      have hall : fields.filter (fun f => isKept paths f.1 f.2) = fields :=
        List.filter_eq_self.2 fun f _ => by simp [isKept, selects, h]
      rw [hall]
      simp [Value.thinned, h]
  | false => rw [if_neg (by simp), projectFields_eq h]

@[simp] theorem entitySet_project (paths : List Path) (record : FieldList) :
    (record.project paths).entitySet = record.entitySet := by
  cases record
  rw [project, entitySet_mk, entitySet_mk]

@[simp] theorem entitySet_select (record : FieldList) (texts : List String) :
    (record.select texts).entitySet = record.entitySet := entitySet_project _ record

theorem distinct_project (paths : List Path) {record : FieldList} (hd : record.fields.Distinct) :
    (record.project paths).fields.Distinct := by
  rw [Ordered.Distinct, fields_project, Ordered.keys, List.map_map]
  exact hd.sublist (List.filter_sublist.map Prod.fst)

/-- The value of a projected field, if it is kept. -/
theorem get?_project (paths : List Path) {record : FieldList} (hd : record.fields.Distinct)
    (name : String) :
    (record.project paths).get? name
      = ((record.get? name).filter (isKept paths name)).map (·.thinned paths name) := by
  rw [get?, fields_project, Ordered.get?_map fun name (value : Value) => value.thinned paths name,
    Ordered.get?_filter hd, get?]

/-- **Projection keeps the order** of the fields that are expanded or selected. -/
theorem keys_project (paths : List Path) {record : FieldList} (hd : record.fields.Distinct) :
    (record.project paths).keys
      = record.keys.filter fun name => (record.get? name).any (isKept paths name) := by
  rw [keys, fields_project, Ordered.keys, List.map_map]
  exact Ordered.keys_filter hd (isKept paths)

end FieldList

end OData
