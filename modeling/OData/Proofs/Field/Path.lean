/-
Paths as they are written.

A written path is cut at every slash, and each segment is a name unless it is blank.  Blanks around
the text or around a segment do not matter, and the names of a path, written with slashes between
them, are read as that path again.  Projection reads a selection once and follows its paths from
there; writing what is left of the paths inside a field and reading it again would come to the same.

Main definitions:

* `Path.segments`, `Path.name?` — the segments of a written path, and the name of a segment;
* `Path.IsName` — a name that stays in one segment;
* `Path.text` — a path written with slashes.

Main results:

* `Path.ofText_append` — a slash parts the names before it from those behind it;
* `Path.ofText_text` — **a written path is read as it was**;
* `Path.ofText_trim` — blanks around a written path do not matter;
* `FieldList.select_eq_narrow` — **inside a field, a selection selects by what is left of its
  texts**.
-/

import OData.Proofs.Field.Twice
import OData.Proofs.Text.Trim

set_option relaxedAutoImplicit false
set_option autoImplicit false

namespace OData

open Text

namespace Path

/-! ### Segments -/

/-- The texts between the slashes of a written path. -/
def segments (text : String) : List (List Char) := text.toList.splitOn '/'

/-- The name that a segment stands for; a blank one stands for none. -/
def name? (segment : List Char) : Option String :=
  if (trim segment).isEmpty then none else some (String.ofList (trim segment))

theorem ofText_eq (text : String) : ofText text = (segments text).filterMap name? := rfl

@[simp] theorem name?_nil : name? [] = none := rfl

/-- Blanks around a segment do not matter. -/
theorem name?_of_blanks {u v : List Char} (hu : AllBlank u) (hv : AllBlank v)
    (segment : List Char) : name? (u ++ (segment ++ v)) = name? segment := by
  rw [name?, hu.trim_append_left, hv.trim_append, name?]

/-- A piece has the characters of the text, less the mark that it is cut at. -/
theorem mem_of_mem_splitOn {mark : Char} {cs piece : List Char} (h : piece ∈ cs.splitOn mark) :
    ∀ c ∈ piece, c ∈ cs ∧ c ≠ mark := by
  rw [List.splitOn_eq_splitOnP] at h
  induction cs generalizing piece with
  | nil =>
      obtain rfl : piece = [] := by simpa [List.splitOnP_nil] using h
      nofun
  | cons d cs ih =>
      rw [List.splitOnP_cons_eq_if_modifyHead] at h
      split at h
      · rcases List.mem_cons.1 h with rfl | h
        · nofun
        · exact fun c hc => (ih h c hc).imp_left (List.mem_cons_of_mem _)
      · next hd =>
          obtain ⟨first, rest, hcs⟩ :=
            List.exists_cons_of_ne_nil (List.splitOnP_ne_nil (· == mark) cs)
          rw [hcs] at h ih
          rcases List.mem_cons.1 h with rfl | h
          · intro c hc
            rcases List.mem_cons.1 hc with rfl | hc
            · exact ⟨List.mem_cons_self, by simpa using hd⟩
            · exact (ih List.mem_cons_self c hc).imp_left (List.mem_cons_of_mem _)
          · exact fun c hc =>
              (ih (List.mem_cons_of_mem _ h) c hc).imp_left (List.mem_cons_of_mem _)

/-! ### Reading -/

/-- A slash parts the names before it from those behind it. -/
theorem ofText_append (x y : List Char) :
    ofText (String.ofList (x ++ '/' :: y))
      = ofText (String.ofList x) ++ ofText (String.ofList y) := by
  simp only [ofText_eq, segments, String.toList_ofList, List.splitOn_eq_splitOnP]
  rw [List.splitOnP_append_cons x y (by simp), List.filterMap_append]

/-- A text without slashes is one segment. -/
theorem ofText_of_notMem {x : List Char} (h : '/' ∉ x) :
    ofText (String.ofList x) = (name? x).toList := by
  rw [ofText_eq, segments, String.toList_ofList, List.splitOn_eq_singleton h]
  cases hname : name? x <;> simp [hname]

theorem notMem_of_allBlank {b : List Char} (hb : AllBlank b) : '/' ∉ b := by
  intro h
  exact absurd (hb _ h) (by decide)

/-- Blanks in front of a written path and behind it reach the first and the last segment only. -/
theorem ofText_of_blanks {u v : List Char} (hu : AllBlank u) (hv : AllBlank v) (cs : List Char) :
    ofText (String.ofList (u ++ (cs ++ v))) = ofText (String.ofList cs) := by
  have hname : ∀ {u v x : List Char}, AllBlank u → AllBlank v → '/' ∉ x →
      ofText (String.ofList (u ++ (x ++ v))) = ofText (String.ofList x) := by
    intro u v x hu hv hx
    have hwhole : '/' ∉ u ++ (x ++ v) := by
      simp [notMem_of_allBlank hu, notMem_of_allBlank hv, hx]
    rw [ofText_of_notMem hwhole, ofText_of_notMem hx, name?_of_blanks hu hv]
  by_cases hslash : '/' ∈ cs
  · -- the blanks in front stop at the first slash; those behind are left to what follows it
    obtain ⟨x, y, hcs, hx⟩ := List.eq_append_cons_of_mem hslash
    have hshorter : y.length < cs.length := by
      rw [hcs, List.length_append, List.length_cons]
      omega
    have hfirst := hname hu (v := []) nofun hx
    have hrest := ofText_of_blanks (u := []) nofun hv y
    have htext : u ++ (cs ++ v) = (u ++ (x ++ [])) ++ '/' :: ([] ++ (y ++ v)) := by simp [hcs]
    rw [htext, hcs, ofText_append, ofText_append, hfirst, hrest]
  · exact hname hu hv hslash
termination_by cs.length

/-- Blanks around a written path do not matter. -/
theorem ofText_trim (cs : List Char) :
    ofText (String.ofList (trim cs)) = ofText (String.ofList cs) := by
  obtain ⟨a, b, ha, hb, heq⟩ := exists_eq_append_trim_append cs
  have hread := ofText_of_blanks ha hb (trim cs)
  rw [← heq] at hread
  exact hread.symm

/-! ### Writing -/

/-- A name that stays in one segment: it is not empty, has no blanks around it and no slash. -/
structure IsName (name : String) : Prop where
  ne_nil : name.toList ≠ []
  trimmed : IsTrimmed name.toList
  noSlash : '/' ∉ name.toList

/-- A name is read as itself. -/
theorem IsName.ofText_eq {name : String} (h : IsName name) : ofText name = [name] := by
  have := ofText_of_notMem h.noSlash
  rw [String.ofList_toList] at this
  rw [this, name?, h.trimmed.trim_eq]
  simp [h.ne_nil]

/-- Every name that is read stays in one segment. -/
theorem isName_of_mem_ofText {text name : String} (h : name ∈ ofText text) : IsName name := by
  rw [Path.ofText_eq] at h
  obtain ⟨segment, hsegment, hname⟩ := List.mem_filterMap.1 h
  unfold name? at hname
  split at hname
  · cases hname
  · next hne =>
      obtain rfl := Option.some.inj hname
      refine ⟨by simpa using hne, ?_, fun hslash => ?_⟩
      · rw [String.toList_ofList]
        exact isTrimmed_trim segment
      · rw [String.toList_ofList] at hslash
        exact (mem_of_mem_splitOn hsegment _ ((sublist_trim segment).subset hslash)).2 rfl

/-- A path written with slashes between its names. -/
def text (path : Path) : String := "/".intercalate path

/-- A name in front of a written path. -/
theorem IsName.ofText_cons {name : String} (h : IsName name) (text : String) :
    ofText (name ++ "/" ++ text) = name :: ofText text := by
  have hlist : name ++ "/" ++ text = String.ofList (name.toList ++ '/' :: text.toList) := by
    rw [← String.toList_inj]
    simp
  rw [hlist, ofText_append, String.ofList_toList, String.ofList_toList, h.ofText_eq]
  rfl

/-- **A written path is read as it was.** -/
theorem ofText_text {path : Path} (h : ∀ name ∈ path, IsName name) : ofText path.text = path := by
  induction path with
  | nil => rfl
  | cons name path ih =>
      have hname := h name List.mem_cons_self
      have hpath := ih fun other hother => h other (List.mem_cons_of_mem _ hother)
      cases path with
      | nil => exact hname.ofText_eq
      | cons next rest =>
          have htext : text (name :: next :: rest) = name ++ "/" ++ text (next :: rest) := by
            rw [← String.toList_inj]
            simp [text]
          rw [htext, hname.ofText_cons, hpath]

end Path

/-! ### Selections inside a field -/

/-- What reaches into a field consists of names, and at least one. -/
theorem isName_of_mem_inside {texts : List String} {name : String} {path : Path}
    (h : path ∈ inside (selectedPaths texts) name) :
    path ≠ [] ∧ ∀ other ∈ path, Path.IsName other := by
  unfold inside at h
  split at h
  · cases h
  · next hwhole =>
      simp only [Bool.or_eq_true, not_or, FieldList.projectFields.keepsWhole] at hwhole
      refine ⟨?_, ?_⟩
      · rintro rfl
        exact hwhole.2.2 (List.any_eq_true.2 ⟨[], h, rfl⟩)
      · intro other hother
        obtain ⟨whole, hmem, rfl⟩ := List.mem_map.1 h
        obtain ⟨-, text, htext, rfl⟩ := mem_selectedPaths_iff.1 (List.mem_filter.1 hmem).1
        exact Path.isName_of_mem_ofText (List.mem_of_mem_drop hother)

/-- **Inside a field, a selection selects by what is left of its texts**, written again. -/
theorem FieldList.select_eq_narrow (texts : List String) (record : FieldList) :
    record.select texts
      = record.narrow (fun name expanded => selects (selectedPaths texts) name || expanded)
          fun name inner => inner.select ((inside (selectedPaths texts) name).map Path.text) := by
  have hread : ∀ name, selectedPaths ((inside (selectedPaths texts) name).map Path.text)
      = inside (selectedPaths texts) name := by
    intro name
    have hmap : ((inside (selectedPaths texts) name).map Path.text).map Path.ofText
        = inside (selectedPaths texts) name := by
      rw [List.map_map]
      refine (List.map_congr_left fun path hpath => ?_).trans (List.map_id _)
      exact Path.ofText_text (isName_of_mem_inside hpath).2
    rw [selectedPaths, hmap, List.filter_eq_self]
    intro path hpath
    simpa using (isName_of_mem_inside hpath).1
  simp only [select, hread]
  exact project_eq_narrow (selectedPaths texts) record

end OData
