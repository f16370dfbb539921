/-
Selecting inside an expansion, and behind its key.

What is shown of related records can be said at two places: in the parentheses of the term that
expands them, or in the selection around it, by paths that start with the expansion key.  The two
are read by different readers, and the fields are selected at different moments, while the record is
expanded or when that is done.  They come to the same under the key, as long as the capabilities do
not look at the text in parentheses.

Main definitions:

* `Query.IsPathText` — a written path that can stand in a list;
* `Query.insideQuery`, `Query.behindQuery` — the two ways to select.

Main results:

* `FieldList.get?_select_behind` — **paths that start with a name select inside that field**;
* `Related.answer_eq_mapRecords` — related records are selected from when they are complete;
* `Record.get?_answer_insideQuery` — **both ways to select show the same under the key**.
-/

import OData.Proofs.Field.Path
import OData.Proofs.Registry.Registrations
import OData.Proofs.Request.Answer
import OData.Proofs.Request.Nested

set_option relaxedAutoImplicit false
set_option autoImplicit false

namespace OData

open Query Text

/-- Texts without the blanks around them. -/
def trimmed (texts : List String) : List String :=
  texts.map fun text => String.ofList (trim text.toList)

/-! ### Paths that start with a name -/

theorem restsAt_map_cons (name : String) (paths : List Path) :
    restsAt name (paths.map (name :: ·)) = paths := by
  have hstarts : ∀ path ∈ paths.map (name :: ·), Path.startsWith path name = true := by
    simp [Path.startsWith_iff]
  rw [restsAt, List.filter_eq_self.2 hstarts, List.map_map]
  exact List.map_id paths

theorem keepsAll_map_cons {name : String} (hstar : name ≠ "*") {paths : List Path}
    (hne : paths ≠ []) : keepsAll (paths.map (name :: ·)) = false := by
  simp [keepsAll, Path.isStar, hne, hstar]

theorem selects_map_cons (name : String) {paths : List Path} (hne : paths ≠ []) :
    selects (paths.map (name :: ·)) name = true := by
  obtain ⟨path, hpath⟩ := List.exists_mem_of_ne_nil paths hne
  exact selects_iff.2 (.inr ⟨name, path, List.mem_map_of_mem hpath, .inr rfl⟩)

/-- Behind a name, paths reach into the field of that name if none of them ends there. -/
theorem inside_map_cons {name : String} (hstar : name ≠ "*") {paths : List Path} (hne : paths ≠ [])
    (hpaths : ∀ path ∈ paths, path ≠ []) : inside (paths.map (name :: ·)) name = paths := by
  rw [inside, keepsAll_map_cons hstar hne, restsAt_map_cons, if_neg]
  simpa [FieldList.projectFields.keepsWhole, hne] using fun h => hpaths [] h rfl

namespace FieldList

theorem get?_project_map_cons {record : FieldList} (hd : record.fields.Distinct) {name : String}
    (hstar : name ≠ "*") {paths : List Path} (hne : paths ≠ [])
    (hpaths : ∀ path ∈ paths, path ≠ []) :
    (record.project (paths.map (name :: ·))).get? name
      = (record.get? name).map (·.mapRecords (project paths)) := by
  rw [get?_project _ hd]
  cases record.get? name with
  | none => rfl
  | some value =>
      have hkept : isKept (paths.map (name :: ·)) name value = true := by
        rw [isKept, selects_map_cons name hne, Bool.true_or]
      rw [Option.filter_some_eq_some.2 hkept, Option.map_some, Option.map_some,
        Value.thinned_eq_mapRecords, inside_map_cons hstar hne hpaths]

/-- **Paths that start with a name select inside that field.** -/
theorem get?_select_behind {record : FieldList} (hd : record.fields.Distinct) {name : String}
    (hname : Path.IsName name) (hstar : name ≠ "*") {texts : List String} (hne : texts ≠ [])
    (htexts : ∀ text ∈ texts, Path.ofText text ≠ []) :
    (record.select (texts.map fun text => name ++ "/" ++ text)).get? name
      = (record.get? name).map (·.mapRecords (·.select texts)) := by
  have hpaths : selectedPaths texts = texts.map Path.ofText :=
    List.filter_eq_self.2 (by simpa using htexts)
  have hbehind : selectedPaths (texts.map fun text => name ++ "/" ++ text)
      = (texts.map Path.ofText).map (name :: ·) := by
    have hread : Path.ofText ∘ (fun text => name ++ "/" ++ text) = (name :: ·) ∘ Path.ofText :=
      funext hname.ofText_cons
    rw [selectedPaths, List.map_map, List.map_map, hread, List.filter_eq_self]
    simp
  rw [select, hbehind,
    get?_project_map_cons hd hstar (by simpa using hne) (by simpa using htexts), ← hpaths]
  rfl

/-- Blanks around the texts of a selection do not matter. -/
theorem select_trimmed (record : FieldList) (texts : List String) :
    record.select (trimmed texts) = record.select texts := by
  have hread : Path.ofText ∘ (fun text => String.ofList (trim text.toList)) = Path.ofText := by
    funext text
    rw [Function.comp_apply, Path.ofText_trim, String.ofList_toList]
  rw [select, select, selectedPaths, trimmed, List.map_map, hread, selectedPaths]

end FieldList

/-! ### Related records -/

/-- Related records are selected from when they are complete. -/
theorem Related.answer_eq_mapRecords (registry : Registry) (related : Related) (options : Options) :
    related.answer registry options
      = (related.answer registry { options with select := [] }).mapRecords
          (·.select options.select) := by
  have hselect : ∀ record : Record, (record.answer registry options).value
      = (record.answer registry { options with select := [] }).value.select options.select := by
    intro record
    rw [Record.value_answer, Record.value_answer]
    exact congrArg (·.select options.select) (FieldList.project_nil _).symm
  cases related with
  | one record => exact congrArg Value.nested (hselect record)
  | many records =>
      simp only [answer, answerAll, Journal.value_traverse, Value.mapRecords, List.map_map, hselect,
        Function.comp_def]

/-! ### Written paths in a list -/

namespace Query

/-- A written path that can stand in a list: it names something, and it has none of the characters
with a meaning. -/
structure IsPathText (text : String) : Prop where
  named : Path.ofText text ≠ []
  plain : ∀ c ∈ text.toList, c ∉ ['(', ')', ',', ';', '&', '=', '$']

theorem isPathText_iff {text : String} :
    IsPathText text ↔ Path.ofText text ≠ [] ∧
      (text.toList.all fun c => c ∉ ['(', ')', ',', ';', '&', '=', '$']) = true := by
  rw [← plain_iff_all]
  exact ⟨fun h => ⟨h.named, h.plain⟩, fun ⟨hnamed, hplain⟩ => ⟨hnamed, hplain⟩⟩

instance (text : String) : Decidable (IsPathText text) := decidable_of_iff' _ isPathText_iff

theorem IsPathText.isEntry {text : String} (h : IsPathText text) : IsEntry text where
  ne_blank hblank := by
    have hread := Path.ofText_trim text.toList
    rw [hblank, String.ofList_toList] at hread
    exact h.named hread.symm
  plain := h.plain

theorem IsWord.isName {name : String} (h : IsWord name) (hslash : '/' ∉ name.toList) :
    Path.IsName name :=
  ⟨h.ne_nil, h.trimmed, hslash⟩

/-- A path behind a name. -/
theorem IsPathText.behind {text : String} (h : IsPathText text) {name : String} (hname : IsWord name)
    (hslash : '/' ∉ name.toList) : IsPathText (name ++ "/" ++ text) where
  named := by
    rw [(hname.isName hslash).ofText_cons]
    exact List.cons_ne_nil _ _
  plain c hc := by
    rw [String.toList_append, String.toList_append, List.mem_append, List.mem_append] at hc
    rcases hc with (hc | hc) | hc
    · exact hname.plain c hc
    · rw [List.mem_singleton.1 hc]
      decide
    · exact h.plain c hc

/-! ### Two ways to select -/

/-- A query that expands a relationship and selects from its records in the parentheses. -/
def insideQuery (name : String) (paths : List String) : String :=
  "$expand=" ++ name ++ "($select=" ++ ",".intercalate paths ++ ")"

/-- A query that expands a relationship and selects from its records behind a key. -/
def behindQuery (name key : String) (paths : List String) : String :=
  "$expand=" ++ name ++ "&$select=" ++ ",".intercalate (paths.map fun path => key ++ "/" ++ path)

example : behindQuery "Author" "Writer" ["Name", "Wrote/Title"]
    = "$expand=Author&$select=Writer/Name,Writer/Wrote/Title" := by decide

theorem insideQuery_eq (name : String) (paths : List String) :
    insideQuery name paths
      = expandQuery name (Setting.query [listSetting .select paths]) := by
  rw [← String.toList_inj]
  simp [insideQuery, expandQuery, Setting.query, Setting.text, listSetting, SystemOption.label,
    String.toList_intercalate]

theorem behindQuery_eq (name key : String) (paths : List String) :
    behindQuery name key paths
      = Setting.query [listSetting .expand [name],
          listSetting .select (paths.map fun path => key ++ "/" ++ path)] := by
  rw [← String.toList_inj]
  simp [behindQuery, Setting.query, Setting.text, listSetting, SystemOption.label,
    String.toList_intercalate]

variable {name key : String} {paths : List String}

/-- In parentheses a selection is read with the options of the term. -/
theorem parse_insideQuery (hname : IsWord name) (hne : paths ≠ [])
    (hpaths : ∀ path ∈ paths, IsPathText path) :
    ∃ item : ExpandItem, Options.parse (insideQuery name paths) = { expand := [item] } ∧
      item.name = name ∧ item.nested = { select := trimmed paths } := by
  have hentry := fun path hpath => (hpaths path hpath).isEntry
  have hplain : ∀ s ∈ [listSetting .select paths], s.IsPlain :=
    List.forall_mem_singleton.2 (isPlain_listSetting hne hentry)
  refine ⟨groupItem name (Setting.query [listSetting .select paths]), ?_, rfl, ?_⟩
  · rw [insideQuery_eq, parse_expandQuery hname (Setting.balanced_query hplain)]
  · have hclauses : Options.ofClauses ([listSetting .select paths].map Setting.clause)
        = { select := (listSetting .select paths).clause.members.map String.ofList } := rfl
    rw [Setting.nested_groupItem hplain (List.nodup_singleton _), Setting.parse_query hplain,
      hclauses, members_clause_listSetting (.inr rfl) hne hentry, List.map_map]
    rfl

/-- Behind the term a selection is read with the options around it. -/
theorem parse_behindQuery (hname : IsWord name) (hkey : IsWord key) (hslash : '/' ∉ key.toList)
    (hne : paths ≠ []) (hpaths : ∀ path ∈ paths, IsPathText path) :
    Options.parse (behindQuery name key paths)
      = { expand := [⟨name, ""⟩],
          select := trimmed (paths.map fun path => key ++ "/" ++ path) } := by
  let behind := paths.map fun path => key ++ "/" ++ path
  have hbehind : behind ≠ [] := by simpa [behind] using hne
  have hexpand : ∀ text ∈ [name], IsEntry text := List.forall_mem_singleton.2 hname.isEntry
  have hselect : ∀ text ∈ behind, IsEntry text := by
    intro text htext
    obtain ⟨path, hpath, rfl⟩ := List.mem_map.1 htext
    exact ((hpaths path hpath).behind hkey hslash).isEntry
  have hplain : ∀ s ∈ [listSetting .expand [name], listSetting .select behind], s.IsPlain := by
    refine List.forall_mem_cons.2 ⟨isPlain_listSetting (List.cons_ne_nil _ _) hexpand, ?_⟩
    exact List.forall_mem_singleton.2 (isPlain_listSetting hbehind hselect)
  have hclauses : Options.ofClauses
        ([listSetting .expand [name], listSetting .select behind].map Setting.clause)
      = { expand := readTerms (listSetting .expand [name]).clause.members,
          select := (listSetting .select behind).clause.members.map String.ofList } := rfl
  have hterms : readTerms [name.toList] = [⟨name, ""⟩] := by
    simp [readTerms, hname.readTerm_bare, mergeItem]
  rw [behindQuery_eq, Setting.parse_query hplain, hclauses,
    members_clause_listSetting (.inl rfl) (List.cons_ne_nil _ _) hexpand,
    members_clause_listSetting (.inr rfl) hbehind hselect, List.map_singleton,
    hname.trimmed.trim_eq, hterms, List.map_map]
  rfl

end Query

/-! ### Under the expansion key -/

/-- **Both ways to select show the same under the key.**  If no capability looks at the text in
parentheses, a relationship that is resolved is shown under its expansion key with the fields that
some paths select, whether they stand in its parentheses or behind its key; this is what the related
record, or each of the related records, answers to a request that selects them. -/
theorem Record.get?_answer_insideQuery {registry : Registry} (hignores : registry.IgnoresSubQuery)
    (record : Record) {name key : String} (hname : IsWord name) (hkey : IsWord key)
    (hslash : '/' ∉ key.toList) (hstar : key ≠ "*")
    (hexpansion : expansionKey registry (record.introspect [name]) name = key) {related : Related}
    (hresolved : registry.capability record.type.name (record.introspect [name]) name ""
      = some related)
    {paths : List String} (hne : paths ≠ []) (hpaths : ∀ path ∈ paths, IsPathText path) :
    let inside := (record.answer registry (Options.parse (insideQuery name paths))).value.get? key
    let behind :=
      (record.answer registry (Options.parse (behindQuery name key paths))).value.get? key
    inside = behind ∧ inside = some (related.answer registry { select := paths }) := by
  intro inside behind
  -- both show the complete related records with the paths selected
  have hshown : ∀ item : ExpandItem, item.name = name →
      (record.expanded registry [item]).value.get? key
        = some (related.answer registry item.nested) := by
    rintro item rfl
    rw [← hexpansion]
    refine get?_expanded_singleton ?_
    rw [hignores _ _ _ _ "", hresolved]
  have hinside : inside = some (related.answer registry { select := paths }) := by
    obtain ⟨item, hparse, hitem, hnested⟩ := parse_insideQuery hname hne hpaths
    have hanswer : (record.answer registry { expand := [item] }).value
        = (record.expanded registry [item]).value := by
      rw [value_answer]
      exact FieldList.project_nil _
    simp only [inside, hparse, hanswer, hshown item hitem, hnested]
    rw [Related.answer_eq_mapRecords, Related.answer_eq_mapRecords _ _ { select := paths }]
    simp only [FieldList.select_trimmed]
  have hbehind : behind = some (related.answer registry { select := paths }) := by
    have hnested : ExpandItem.nested ⟨name, ""⟩ = {} := rfl
    simp only [behind, parse_behindQuery hname hkey hslash hne hpaths, value_answer,
      FieldList.select_trimmed]
    rw [FieldList.get?_select_behind (distinct_expanded _ _ _) (hkey.isName hslash) hstar hne
      fun path hpath => (hpaths path hpath).named, hshown _ rfl, hnested,
      Related.answer_eq_mapRecords _ _ { select := paths }]
    rfl
  exact ⟨hinside.trans hbehind.symm, hinside⟩

/-! ### Novels -/

/-- A novelist, whose novels are shown under another name than that of the relationship. -/
def novelist : Record where
  type := { name := "Novelists",
            fields := [.scalar "Name" .string, .scalar "Born" .int32,
              { Field.navigation "Novels" with displayName := some "Wrote" }] }
  value? name :=
    if name = "Name" then some (.scalar (.string "Mary"))
    else if name = "Born" then some (.scalar (.int 1797))
    else none

/-- A novel, whose novelist is shown under another name than that of the relationship. -/
def novel : Record where
  type := { name := "Novels",
            fields := [.scalar "Title" .string, .scalar "Year" .int32,
              { Field.navigation "Author" with displayName := some "Writer" }] }
  value? name :=
    if name = "Title" then some (.scalar (.string "The Last Man"))
    else if name = "Year" then some (.scalar (.int 1826))
    else none

/-- A novelist leads to novels. -/
def novelistRelated : Capability := fun _ relationship _ =>
  if relationship = "Novels" then some (.many [novel, novel]) else none

/-- A novel leads to its novelist. -/
def novelRelated : Capability := fun _ relationship _ =>
  if relationship = "Author" then some (.one novelist) else none

/-- Novelists and their novels. -/
def novels : Registry :=
  .ofRegistrations "Shelf"
    [.set novelist.type { expand := novelistRelated }, .set novel.type { expand := novelRelated }]

theorem ignoresSubQuery_novels : novels.IgnoresSubQuery := by
  refine Registry.ignoresSubQuery_ofRegistrations _ (List.forall_mem_cons.2 ⟨?_, ?_⟩)
  · exact fun _ _ _ _ => rfl
  · exact List.forall_mem_singleton.2 fun _ _ _ _ => rfl

theorem isPathText_novels :
    (∀ path ∈ [" name ", "/Wrote/Title"], IsPathText path) ∧
      ∀ path ∈ ["TITLE", "Year"], IsPathText path := by
  decide

/-- A novelist and several novels, each selected from in both ways. -/
theorem get?_answer_insideQuery_novels :
    let answer (record : Record) (query : String) : FieldList :=
      (record.answer novels (Options.parse query)).value
    let inNovelist := [" name ", "/Wrote/Title"]
    let inNovels := ["TITLE", "Year"]
    (IsWord "Author" ∧ IsWord "Writer" ∧ IsWord "Novels" ∧ IsWord "Wrote") ∧
      (answer novel (insideQuery "Author" inNovelist)).get? "Writer"
        = (answer novel (behindQuery "Author" "Writer" inNovelist)).get? "Writer" ∧
      (answer novelist (insideQuery "Novels" inNovels)).get? "Wrote"
        = (answer novelist (behindQuery "Novels" "Wrote" inNovels)).get? "Wrote" := by
  have hwords : IsWord "Author" ∧ IsWord "Writer" ∧ IsWord "Novels" ∧ IsWord "Wrote" := by decide
  have hone : novels.capability "Novels" (novel.introspect ["Author"]) "Author" ""
      = some (.one novelist) := rfl
  have hmany : novels.capability "Novelists" (novelist.introspect ["Novels"]) "Novels" ""
      = some (.many [novel, novel]) := rfl
  obtain ⟨hauthor, hwriter, hnovels, hwrote⟩ := hwords
  exact ⟨⟨hauthor, hwriter, hnovels, hwrote⟩,
    (novel.get?_answer_insideQuery ignoresSubQuery_novels hauthor hwriter (by decide) (by decide)
      rfl hone (List.cons_ne_nil _ _) isPathText_novels.1).1,
    (novelist.get?_answer_insideQuery ignoresSubQuery_novels hnovels hwrote (by decide)
      (by decide) rfl hmany (List.cons_ne_nil _ _) isPathText_novels.2).1⟩

end OData
