/-
Projecting a record twice.

What a projection keeps of a field depends on the name of the field, on whether it is expanded and on
nothing else, and it never changes either.  So a second projection keeps of the first one what it
would have kept of the record itself: the fields that both keep, each with its records projected by
what either has to say about them.  It follows that projections commute and that projecting again by
the same paths does nothing.

* `inside` — the paths that reach into the records of a field;
* `FieldList.project_eq_narrow` — **a projection leaves fields out, and projects inside the others**;
* `FieldList.select_select_comm` — projections commute;
* `FieldList.select_select_self` — projecting twice is projecting once.
-/

import OData.Proofs.Field.Records
import OData.Proofs.Request.Projection

set_option relaxedAutoImplicit false
set_option autoImplicit false

namespace OData

/-! ### Inside a field -/

/-- The paths that reach into the records of a field of some name: the rests of those that select the
field, or none if one of them, or a star, keeps the records whole. -/
def inside (paths : List Path) (name : String) : List Path :=
  if keepsAll paths || FieldList.projectFields.keepsWhole (restsAt name paths) then []
  else restsAt name paths

namespace Value

theorem project_eq_mapRecords (paths : List Path) (value : Value) :
    value.project paths = value.mapRecords (FieldList.project paths) := by
  cases value with
  | nested record => rw [project, mapRecords]
  | nestedList records => rw [project, mapRecords, FieldList.projectList_eq_map]
  | scalar | absent => exact project_of_not_isExpanded paths rfl

/-- What is left of a value is its records, projected by the paths that reach into them. -/
theorem thinned_eq_mapRecords (paths : List Path) (name : String) (value : Value) :
    value.thinned paths name = value.mapRecords (FieldList.project (inside paths name)) := by
  have hnone : FieldList.project [] = id := funext FieldList.project_nil
  rw [thinned, inside]
  split
  · rw [hnone, mapRecords_id]
  · exact project_eq_mapRecords _ value

end Value

namespace FieldList

/-- **A projection leaves fields out and projects the records inside the others.** -/
theorem project_eq_narrow (paths : List Path) (record : FieldList) :
    record.project paths
      = record.narrow (fun name expanded => selects paths name || expanded)
          fun name => project (inside paths name) := by
  have hfields := fields_project paths record
  simp only [Value.thinned_eq_mapRecords] at hfields
  obtain ⟨set, fields⟩ := record
  rw [project] at hfields ⊢
  exact congrArg (mk set) hfields

/-! ### Two projections -/

/-- Two projections leave the fields that both of them keep, and project the records inside twice. -/
theorem project_project_eq_narrow (S T : List Path) (record : FieldList) :
    (record.project S).project T
      = record.narrow
          (fun name expanded => (selects S name || expanded) && (selects T name || expanded))
          fun name => project (inside T name) ∘ project (inside S name) := by
  rw [project_eq_narrow S record, project_eq_narrow T, narrow_narrow]

theorem project_project_comm (S T : List Path) (record : FieldList) :
    (record.project S).project T = (record.project T).project S := by
  -- other paths reach into the records inside
  induction record using recordInduction generalizing S T with
  | step record ih =>
      rw [project_project_eq_narrow, project_project_eq_narrow]
      exact narrow_congr (fun _ _ => Bool.and_comm _ _) fun field hfield inner hinner =>
        ih field hfield inner hinner (inside S field.1) (inside T field.1)

theorem project_project_self (S : List Path) (record : FieldList) :
    (record.project S).project S = record.project S := by
  induction record using recordInduction generalizing S with
  | step record ih =>
      rw [project_project_eq_narrow, project_eq_narrow S record]
      exact narrow_congr (fun _ _ => Bool.and_self _) fun field hfield inner hinner =>
        ih field hfield inner hinner (inside S field.1)

/-- **Projections commute**, whatever their paths are and however deep the record is. -/
theorem select_select_comm (record : FieldList) (S T : List String) :
    (record.select S).select T = (record.select T).select S :=
  project_project_comm (selectedPaths S) (selectedPaths T) record

/-- **Projecting twice by the same paths is projecting once**, at every depth. -/
theorem select_select_self (record : FieldList) (S : List String) :
    (record.select S).select S = record.select S :=
  project_project_self (selectedPaths S) record

end FieldList

end OData
