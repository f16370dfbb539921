/-
Projection: the fields that `$select` keeps.

A path is a list of names; its first name selects a field without regard to the case of ASCII
letters, and the rest reaches into the records of an expanded field.  Expanded fields are kept
whatever is selected; a longer path only thins their records out.  No path, or a star, keeps
everything.

* `Path.ofText` — the names of a written path, blank ones left out;
* `FieldList.project` — projection by paths;
* `selectedPaths`, `mem_selectedPaths_iff` — the paths that are written;
* `FieldList.select` — projection by written paths.
-/

import OData.Field.Value
import OData.Text.Blank
import OData.Text.Letter

set_option relaxedAutoImplicit false
set_option autoImplicit false

namespace OData

/-- The names that lead from a record to a field. -/
abbrev Path : Type := List String

namespace Path

/-- The names of a path written with slashes, trimmed, less the blank ones. -/
def ofText (text : String) : Path :=
  (text.toList.splitOn '/').filterMap fun segment =>
    let name := Text.trim segment
    if name.isEmpty then none else some (String.ofList name)

/-- Whether a path is a star, which selects everything. -/
def isStar (path : Path) : Bool := path.head? == some "*"

/-- Whether a path starts with a name, ASCII letters of either case being alike. -/
def startsWith (path : Path) (name : String) : Bool :=
  match path with
  | [] => false
  | first :: _ => Text.sameLetters first.toList name.toList

theorem isStar_iff {path : Path} : path.isStar = true ↔ ∃ rest, path = "*" :: rest := by
  cases path <;> simp [isStar]

theorem startsWith_iff {path : Path} {name : String} :
    path.startsWith name = true ↔
      ∃ first rest, path = first :: rest ∧
        Text.lower first.toList = Text.lower name.toList := by
  cases path <;> simp [startsWith, Text.sameLetters_iff]

end Path

/-- The rests of the paths that select a field. -/
def restsAt (name : String) (paths : List Path) : List Path :=
  (paths.filter (·.startsWith name)).map (·.drop 1)

/-- Whether some paths keep every field. -/
def keepsAll (paths : List Path) : Bool := paths.isEmpty || paths.any Path.isStar

mutual

/-- Thins out the records of an expanded value. -/
def Value.project (paths : List Path) : Value → Value
  | .nested record => .nested (record.project paths)
  | .nestedList records => .nestedList (FieldList.projectList paths records)
  | value => value

/-- The fields of a record that some paths select, in their order. -/
def FieldList.project (paths : List Path) : FieldList → FieldList
  | .mk set fields =>
    .mk set (if keepsAll paths then fields else FieldList.projectFields paths fields)

/-- Projects several records alike. -/
def FieldList.projectList (paths : List Path) : List FieldList → List FieldList
  | [] => []
  | record :: rest => record.project paths :: FieldList.projectList paths rest

/-- The fields that some paths select.  A path that ends at an expanded field keeps its records
whole. -/
def FieldList.projectFields (paths : List Path) : List (String × Value) → List (String × Value)
  | [] => []
  | (key, value) :: rest =>
    let rests := restsAt key paths
    if value.isExpanded then
      (key, if keepsWhole rests then value else value.project rests) ::
        FieldList.projectFields paths rest
    else if rests.isEmpty then FieldList.projectFields paths rest
    else (key, value) :: FieldList.projectFields paths rest
where
  /-- Whether an expanded field is kept as it is: nothing reaches into it, or something selects it
  whole. -/
  keepsWhole (rests : List Path) : Bool := rests.isEmpty || rests.any List.isEmpty

end

/-- The paths that a `$select` value names, less the empty ones. -/
def selectedPaths (texts : List String) : List Path :=
  (texts.map Path.ofText).filter (! ·.isEmpty)

/-- The selected paths are those that are written and hold a name. -/
theorem mem_selectedPaths_iff {texts : List String} {path : Path} :
    path ∈ selectedPaths texts ↔ path ≠ [] ∧ ∃ text ∈ texts, Path.ofText text = path := by
  simp [selectedPaths, and_comm]

/-- The fields of a record that written paths select. -/
def FieldList.select (record : FieldList) (texts : List String) : FieldList :=
  record.project (selectedPaths texts)

@[simp] theorem FieldList.projectList_eq_map (paths : List Path) (records : List FieldList) :
    FieldList.projectList paths records = records.map (FieldList.project paths) := by
  induction records with
  | nil => rfl
  | cons record rest ih => simp [FieldList.projectList, ih]

@[simp] theorem FieldList.project_nil (record : FieldList) : record.project [] = record := by
  cases record
  simp [FieldList.project, keepsAll]

end OData
