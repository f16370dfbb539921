/-
Selections that are written in another way.

A selection is a list of texts, and the same one can be written in any number of ways: in another
order, with a text twice, with letters of the other case, with blanks around names, with slashes that
separate nothing, with texts that name nothing.  What is selected depends on none of that.  All that
matters is which paths are there, with their names in lower case; at every level of a record, equal
sets of such paths leave the same fields and lead to equal sets inside them.

Main definitions:

* `Path.folded` — the names of a path in lower case;
* `Alike` — lists of paths that are the same set, whatever the case of letters;
* `Respells` — one way of writing a selection, and another that differs from it in one place.

Main results:

* `Alike.restsAt`, `Alike.inside` — lists that are alike lead to lists that are alike;
* `FieldList.project_congr` — **lists that are alike project alike**;
* `Respells.alike` — another way of writing a selection is alike;
* `FieldList.select_congr` — **only the set of paths matters**.
-/

import Mathlib.Data.List.Basic
import Mathlib.Logic.Relation
import OData.Proofs.Field.Path
import OData.Proofs.Text.Letter

set_option relaxedAutoImplicit false
set_option autoImplicit false

namespace OData

open Text

/-! ### Paths up to case -/

/-- The names of a path with their letters in lower case. -/
def Path.folded (path : Path) : List (List Char) := path.map fun name => lower name.toList

/-- Lists of paths that are the same set, whatever the case of the letters in them. -/
def Alike (S T : List Path) : Prop :=
  ∀ names, names ∈ S.map Path.folded ↔ names ∈ T.map Path.folded

theorem lower_eq_star_iff {name : String} : lower name.toList = ['*'] ↔ name = "*" := by
  constructor
  · intro h
    obtain ⟨c, hc, hstar⟩ := List.map_eq_singleton_iff.1 h
    rw [eq_of_toLower_eq rfl hstar] at hc
    exact String.toList_inj.1 hc
  · rintro rfl
    rfl

theorem Path.isStar_iff_folded {path : Path} :
    path.isStar = true ↔ ∃ rest, path.folded = ['*'] :: rest := by
  cases path with
  | nil => simp [isStar_iff, folded]
  | cons name path => simp [isStar_iff, folded, lower_eq_star_iff]

theorem keepsAll_iff {paths : List Path} :
    keepsAll paths = true ↔ (∀ names, names ∉ paths.map Path.folded) ∨
      ∃ rest, ['*'] :: rest ∈ paths.map Path.folded := by
  rw [keepsAll, Bool.or_eq_true, List.any_eq_true]
  refine or_congr (by simp [List.eq_nil_iff_forall_not_mem]) ⟨?_, ?_⟩
  · rintro ⟨path, hpath, hstar⟩
    obtain ⟨rest, hrest⟩ := Path.isStar_iff_folded.1 hstar
    exact ⟨rest, hrest ▸ List.mem_map_of_mem hpath⟩
  · rintro ⟨rest, hrest⟩
    obtain ⟨path, hpath, heq⟩ := List.mem_map.1 hrest
    exact ⟨path, hpath, Path.isStar_iff_folded.2 ⟨rest, heq⟩⟩

/-- The rests at a name are what stands behind the name in lower case. -/
theorem mem_folded_restsAt {name : String} {paths : List Path} {names : List (List Char)} :
    names ∈ (restsAt name paths).map Path.folded ↔
      lower name.toList :: names ∈ paths.map Path.folded := by
  have hpath : ∀ path : Path, path.startsWith name = true ∧ Path.folded (path.drop 1) = names ↔
      path.folded = lower name.toList :: names := by
    intro path
    cases path with
    | nil => simp [Path.startsWith_iff, Path.folded]
    | cons first rest => simp [Path.startsWith_iff, Path.folded]
  rw [restsAt, List.map_map]
  simp only [List.mem_map, List.mem_filter, Function.comp_apply, and_assoc, hpath]

namespace Alike

variable {S T : List Path}

theorem refl (S : List Path) : Alike S S := fun _ => Iff.rfl

theorem keepsAll_eq (h : Alike S T) : keepsAll S = keepsAll T := by
  rw [Bool.eq_iff_iff, keepsAll_iff, keepsAll_iff]
  simp only [h _]

/-- Lists that are alike lead to rests that are alike. -/
theorem restsAt (h : Alike S T) (name : String) : Alike (restsAt name S) (restsAt name T) := by
  intro names
  rw [mem_folded_restsAt, mem_folded_restsAt, h]

theorem isEmpty_eq (h : Alike S T) : S.isEmpty = T.isEmpty := by
  have hempty : ∀ paths : List Path,
      paths.isEmpty = true ↔ ∀ names, names ∉ paths.map Path.folded := by
    intro paths
    simp [List.eq_nil_iff_forall_not_mem]
  rw [Bool.eq_iff_iff, hempty, hempty]
  simp only [h _]

theorem selects_eq (h : Alike S T) (name : String) : selects S name = selects T name := by
  have hrests := (h.restsAt name).isEmpty_eq
  rw [isEmpty_restsAt, isEmpty_restsAt] at hrests
  rw [selects, selects, h.keepsAll_eq, Bool.not_inj hrests]

theorem keepsWhole_eq (h : Alike S T) :
    FieldList.projectFields.keepsWhole S = FieldList.projectFields.keepsWhole T := by
  have hwhole : ∀ paths : List Path,
      paths.any List.isEmpty = true ↔ [] ∈ paths.map Path.folded := by
    intro paths
    simp [Path.folded]
  rw [FieldList.projectFields.keepsWhole, FieldList.projectFields.keepsWhole, h.isEmpty_eq]
  congr 1
  rw [Bool.eq_iff_iff, hwhole, hwhole, h]

/-- Inside a field, lists that are alike are alike. -/
theorem inside (h : Alike S T) (name : String) : Alike (inside S name) (inside T name) := by
  rw [OData.inside, OData.inside, h.keepsAll_eq, (h.restsAt name).keepsWhole_eq]
  split
  · exact .refl []
  · exact h.restsAt name

end Alike

/-- **Lists that are alike project alike.** -/
theorem FieldList.project_congr {S T : List Path} (h : Alike S T) (record : FieldList) :
    record.project S = record.project T := by
  -- what reaches into the records inside is alike again
  induction record using recordInduction generalizing S T with
  | step record ih =>
      rw [project_eq_narrow S, project_eq_narrow T]
      exact narrow_congr (fun name expanded => by rw [h.selects_eq name])
        fun field hfield inner hinner => ih field hfield inner hinner (h.inside field.1)

/-! ### Ways of writing -/

/-- The segments of a written path, and those of another way of writing it: letters of another case
in a segment, blanks around a segment, or an empty segment more. -/
inductive Path.Respells : List (List Char) → List (List Char) → Prop
  | letters (before after : List (List Char)) {segment segment' : List Char}
      (h : sameLetters segment segment' = true) :
      Respells (before ++ segment :: after) (before ++ segment' :: after)
  | blanks (before after : List (List Char)) (segment : List Char) {u v : List Char}
      (hu : AllBlank u) (hv : AllBlank v) :
      Respells (before ++ segment :: after) (before ++ (u ++ (segment ++ v)) :: after)
  | slash (before after : List (List Char)) : Respells (before ++ after) (before ++ [] :: after)

/-- A selection, and another way of writing it: in another order, with a text once more, with a text
of blanks and slashes more, or with a path written in another way. -/
inductive Respells : List String → List String → Prop
  | reorder {S T : List String} (h : S.Perm T) : Respells S T
  | again {S : List String} {text : String} (h : text ∈ S) : Respells S (text :: S)
  | blank {S : List String} {text : String} (h : ∀ c ∈ text.toList, c = '/' ∨ isBlank c = true) :
      Respells S (text :: S)
  | path {S : List String} {text text' : String}
      (h : Path.Respells (Path.segments text) (Path.segments text')) :
      Respells (text :: S) (text' :: S)

namespace Path

/-- The name of a segment in lower case is what is left when the segment in lower case is trimmed. -/
theorem folded_name? (segment : List Char) :
    (name? segment).map (fun name => lower name.toList)
      = if (trim (lower segment)).isEmpty then none else some (trim (lower segment)) := by
  rw [trim_lower, name?]
  cases h : trim segment <;> simp [lower]

theorem folded_ofText (text : String) :
    (ofText text).folded
      = (segments text).filterMap fun segment =>
          (name? segment).map fun name => lower name.toList := by
  rw [ofText_eq, folded, List.map_filterMap]

theorem Respells.folded_ofText_eq {text text' : String}
    (h : Respells (segments text) (segments text')) :
    (ofText text).folded = (ofText text').folded := by
  rw [folded_ofText, folded_ofText]
  generalize segments text = all, segments text' = all' at h ⊢
  cases h with
  | letters before after h =>
      rw [List.filterMap_append, List.filterMap_append, List.filterMap_cons, List.filterMap_cons,
        folded_name?, folded_name?, sameLetters_iff.1 h]
  | blanks before after segment hu hv =>
      rw [List.filterMap_append, List.filterMap_append, List.filterMap_cons, List.filterMap_cons,
        name?_of_blanks hu hv]
  | slash before after =>
      rw [List.filterMap_append, List.filterMap_append, List.filterMap_cons]
      rfl

/-- A text of blanks and slashes names nothing. -/
theorem ofText_eq_nil {text : String} (h : ∀ c ∈ text.toList, c = '/' ∨ isBlank c = true) :
    ofText text = [] := by
  rw [ofText_eq, List.filterMap_eq_nil_iff]
  intro segment hsegment
  have hblank : AllBlank segment := by
    intro c hc
    obtain ⟨hmem, hslash⟩ := mem_of_mem_splitOn hsegment c hc
    exact (h c hmem).resolve_left hslash
  have hnil : trim segment = [] := by
    have := hblank.trim_append []
    rwa [List.nil_append] at this
  rw [name?, hnil]
  rfl

end Path

theorem mem_folded_selectedPaths {S : List String} {names : List (List Char)} :
    names ∈ (selectedPaths S).map Path.folded ↔
      names ≠ [] ∧ ∃ text ∈ S, (Path.ofText text).folded = names := by
  have hempty : ∀ path : Path, path ≠ [] ↔ path.folded ≠ [] := by
    intro path
    simp [Path.folded]
  simp only [List.mem_map, mem_selectedPaths_iff, hempty]
  constructor
  · rintro ⟨_, ⟨hne, text, htext, rfl⟩, rfl⟩
    exact ⟨hne, text, htext, rfl⟩
  · rintro ⟨hne, text, htext, rfl⟩
    exact ⟨_, ⟨hne, text, htext, rfl⟩, rfl⟩

/-- **Another way of writing a selection is alike.** -/
theorem Respells.alike {S T : List String} (h : Respells S T) :
    Alike (selectedPaths S) (selectedPaths T) := by
  intro names
  rw [mem_folded_selectedPaths, mem_folded_selectedPaths]
  refine and_congr_right fun hne => ?_
  cases h with
  | reorder h => simp only [h.mem_iff]
  | @again _ text h =>
      rw [List.exists_mem_cons_iff]
      refine ⟨.inr, ?_⟩
      rintro (heq | hrest)
      · exact ⟨text, h, heq⟩
      · exact hrest
  | blank h =>
      rw [List.exists_mem_cons_iff, Path.ofText_eq_nil h]
      refine ⟨.inr, ?_⟩
      rintro (heq | hrest)
      · exact absurd heq.symm hne
      · exact hrest
  | path h => rw [List.exists_mem_cons_iff, List.exists_mem_cons_iff, h.folded_ofText_eq]

/-- **Only the set of paths matters.**  Selections that are written in other ways, any number of
times over, are alike, and selections that are alike select the same of every record. -/
theorem FieldList.select_congr (S T : List String) :
    (Relation.EqvGen Respells S T → Alike (selectedPaths S) (selectedPaths T)) ∧
      (Alike (selectedPaths S) (selectedPaths T) →
        ∀ record : FieldList, record.select S = record.select T) := by
  refine ⟨fun h => ?_, fun h record => project_congr h record⟩
  induction h with
  | rel _ _ h => exact h.alike
  | refl _ => exact .refl _
  | symm _ _ _ ih => exact fun names => (ih names).symm
  | trans _ _ _ _ _ ih ih' => exact fun names => (ih names).trans (ih' names)

/-! ### A book and its author -/

/-- A book that is shown with its author and its chapters. -/
def bookWithAuthor : FieldList :=
  .mk (some "Books") [("Title", .scalar (.string "Notes")), ("Year", .scalar (.int 1843)),
    ("Author", .nested (.mk (some "Authors")
      [("Name", .scalar (.string "Ada")), ("Born", .scalar (.int 1815))])),
    ("Chapters", .nestedList [.mk (some "Chapters") [("Name", .scalar (.string "Note G"))]])]

/-- A path with letters of the other case, blanks around a name and slashes that part nothing. -/
theorem respells_authorName :
    Relation.EqvGen Respells ["Author/Name", "Title"] ["/author// NAME ", "Title"] := by
  have hspace : AllBlank [' '] := by simp [AllBlank, isBlank]
  have hauthor : Path.Respells (Path.segments "Author/Name") (Path.segments "author/Name") :=
    .letters [] ["Name".toList] (rfl : sameLetters "Author".toList "author".toList = true)
  have hname : Path.Respells (Path.segments "author/Name") (Path.segments "author/NAME") :=
    .letters ["author".toList] [] (rfl : sameLetters "Name".toList "NAME".toList = true)
  have hblanks : Path.Respells (Path.segments "author/NAME") (Path.segments "author/ NAME ") :=
    .blanks ["author".toList] [] "NAME".toList hspace hspace
  have hinner : Path.Respells (Path.segments "author/ NAME ") (Path.segments "author// NAME ") :=
    .slash ["author".toList] [" NAME ".toList]
  have hleading : Path.Respells (Path.segments "author// NAME ")
      (Path.segments "/author// NAME ") :=
    .slash [] ["author".toList, [], " NAME ".toList]
  exact .trans _ _ _ (.rel _ _ (.path hauthor)) <| .trans _ _ _ (.rel _ _ (.path hname)) <|
    .trans _ _ _ (.rel _ _ (.path hblanks)) <| .trans _ _ _ (.rel _ _ (.path hinner)) <|
    .rel _ _ (.path hleading)

/-- A selection in another order, with a path written in another way, with a text a second time and
with one that names nothing. -/
theorem respells_titleAndAuthor :
    Relation.EqvGen Respells ["Title", "Author/Name"]
      [" / ", "Title", "/author// NAME ", "Title"] := by
  have hblank : ∀ c ∈ " / ".toList, c = '/' ∨ isBlank c = true := by simp [isBlank]
  exact .trans _ _ _ (.rel _ _ (.reorder (.swap _ _ _))) <|
    .trans _ _ _ respells_authorName <|
    .trans _ _ _ (.rel _ _ (.again (List.mem_cons_of_mem _ List.mem_cons_self))) <|
    .rel _ _ (.blank hblank)

theorem select_congr_titleAndAuthor :
    Relation.EqvGen Respells ["Title", "Author/Name"]
        [" / ", "Title", "/author// NAME ", "Title"] ∧
      bookWithAuthor.select ["Title", "Author/Name"]
        = bookWithAuthor.select [" / ", "Title", "/author// NAME ", "Title"] :=
  have h := FieldList.select_congr ["Title", "Author/Name"]
    [" / ", "Title", "/author// NAME ", "Title"]
  ⟨respells_titleAndAuthor, h.2 (h.1 respells_titleAndAuthor) bookWithAuthor⟩

end OData
