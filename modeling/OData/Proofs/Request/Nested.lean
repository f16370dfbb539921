/-
A nested request means the same as a request.

The options in the parentheses of an expand term are read by a reader of their own and applied while
the record around them is expanded.  What stands under the expansion key in the end is nevertheless
the answer that the related records would give to a request with the same text, whether the
relationship leads to one record or to many.

* `Query.parse_expandQuery` — what is read of a term with options in parentheses;
* `Record.get?_expanded_expandQuery` — **related records are answered like a request of their own**.
-/

import OData.Proofs.Query.Setting
import OData.Proofs.Request.Expansion

set_option relaxedAutoImplicit false
set_option autoImplicit false

namespace OData

open Query

/-! ### A term with options in parentheses -/

/-- Settings with `&` between them. -/
def Query.Setting.query (settings : List Setting) : String :=
  String.ofList (['&'].intercalate (settings.map Setting.text))

/-- A query that expands one relationship, with options in parentheses. -/
def Query.expandQuery (name content : String) : String :=
  "$expand=" ++ name ++ "(" ++ content ++ ")"

/-- The item of a relationship with options in parentheses. -/
def Query.groupItem (name content : String) : ExpandItem :=
  ⟨name, String.ofList (Text.trim content.toList)⟩

/-- A term with balanced parentheses is read as the relationship and the trimmed text in them, and
nothing else is set. -/
theorem Query.parse_expandQuery {name content : String} (hname : IsWord name)
    (hcontent : Balanced 0 content.toList) :
    Options.parse (expandQuery name content) = { expand := [groupItem name content] } := by
  have hmember := hname.isMember_group hcontent
  let clause : Clause := ⟨.expand, [name.toList ++ '(' :: (content.toList ++ [')'])]⟩
  have hsound : clause.Sound := by
    refine ⟨List.cons_ne_nil _ _, fun m hm => ?_, fun hcount => ?_⟩
    · rw [List.mem_singleton.1 hm]
      exact hmember
    · rcases hcount with h | h <;> cases h
  have htext : (expandQuery name content).toList = clause.text := by
    have hlabel : "$expand=".toList = SystemOption.expand.label ++ ['='] := rfl
    simp [expandQuery, clause, Clause.text, Clause.value, hlabel]
  have hjoin : Joined (· == '&') ([clause].map Clause.text) (expandQuery name content).toList := by
    rw [htext]
    exact .single _
  have hread : readTerms clause.members = [groupItem name content] := by
    simp [clause, readTerms, hname.readTerm_group hcontent, mergeItem, groupItem]
  have hoptions : Options.ofClauses [clause] = { expand := readTerms clause.members } := rfl
  rw [Options.parse, ofAssignments_of_joined hjoin (by simpa using hsound), hoptions, hread]

theorem Query.Setting.joined_query (settings : List Setting) :
    Joined (· == '&') (settings.map Setting.text) (query settings).toList := by
  rw [query, String.toList_ofList]
  exact joined_intercalate '&' _

theorem Query.Setting.parse_query {settings : List Setting} (h : ∀ s ∈ settings, s.IsPlain) :
    Options.parse (query settings) = .ofClauses (settings.map Setting.clause) := by
  rw [Options.parse]
  exact ofAssignments_settings (joined_query settings) h

theorem Query.Setting.balanced_query {settings : List Setting} (h : ∀ s ∈ settings, s.IsPlain) :
    Balanced 0 (query settings).toList := by
  refine (joined_query settings).balanced (by simp [IsParenthesis]) fun text htext => ?_
  obtain ⟨s, hs, rfl⟩ := List.mem_map.1 htext
  exact (isWhole_text (h s hs)).balanced

/-- In parentheses the settings set what they set at the top level. -/
theorem Query.Setting.nested_groupItem {settings : List Setting} (h : ∀ s ∈ settings, s.IsPlain)
    (hdistinct : (settings.map (·.option)).Nodup) (name : String) :
    (groupItem name (query settings)).nested = Options.parse (query settings) := by
  have hread := parseNested_trim_eq_parse (joined_query settings) h hdistinct
  rwa [String.ofList_toList] at hread

/-! ### The answer under the expansion key -/

/-- **Related records are answered like a request of their own.**  If the relationship of a term is
resolved, what stands under its expansion key is the answer of the related record, or the answers of
the related records, to the text in the parentheses of the term. -/
theorem Record.get?_expanded_expandQuery (registry : Registry) (record : Record) {name : String}
    (hname : IsWord name) {settings : List Setting} (h : ∀ s ∈ settings, s.IsPlain)
    (hdistinct : (settings.map (·.option)).Nodup) :
    let q := Setting.query settings
    let fields := record.introspect [name]
    let resolved :=
      registry.capability record.type.name fields name (groupItem name q).nestedOption
    let shown := (record.expanded registry (Options.parse (expandQuery name q)).expand).value.get?
      (expansionKey registry fields name)
    (∀ r, resolved = some (.one r) →
        shown = some (.nested (r.answer registry (Options.parse q)).value)) ∧
      ∀ rs, resolved = some (.many rs) →
        shown = some (.nestedList (answerAll registry rs (Options.parse q)).value) := by
  intro q fields resolved shown
  have hshown : ∀ related, resolved = some related →
      shown = some (related.answer registry (Options.parse q)) := by
    intro related hrelated
    have hstep : fields.expandItem registry (registry.capability record.type.name)
        (groupItem name q) = fields.append (expansionKey registry fields name)
            (related.answer registry (groupItem name q).nested) :=
      FieldList.expandItem_of_eq_some hrelated
    have hexpanded : (record.expanded registry (Options.parse (expandQuery name q)).expand).value
        = fields.expandItem registry (registry.capability record.type.name) (groupItem name q) := by
      rw [parse_expandQuery hname (Setting.balanced_query h), Record.value_expanded]
      rfl
    have hnested : (groupItem name q).nested = Options.parse q :=
      Setting.nested_groupItem h hdistinct name
    have hdistinct := record.distinct_introspect [name]
    simp only [shown, hexpanded, hstep, hnested]
    rw [FieldList.get?_append hdistinct, if_pos rfl]
  exact ⟨fun r hr => hshown (.one r) hr, fun rs hrs => hshown (.many rs) hrs⟩

/-! ### A library -/

/-- An author, who is shown with a name and with books. -/
def author : Record where
  type := { name := "Authors", fields := [.scalar "Name" .string, .navigation "Books"] }
  value? name := if name = "Name" then some (.scalar (.string "Ada")) else none

/-- A book, which is shown with a title and with its author. -/
def book : Record where
  type := { name := "Books", fields := [.scalar "Title" .string, .navigation "Author"] }
  value? name := if name = "Title" then some (.scalar (.string "Notes")) else none

/-- An author leads to books. -/
def authorRelated : Capability := fun _ relationship _ =>
  if relationship = "Books" then some (.many [book, book]) else none

/-- A book leads to its author. -/
def bookRelated : Capability := fun _ relationship _ =>
  if relationship = "Author" then some (.one author) else none

/-- A library of authors and books, whose relationships run in circles. -/
def library : Registry :=
  .ofRegistrations "Library"
    [.set author.type { expand := authorRelated }, .set book.type { expand := bookRelated }]

/-- Settings in the spellings that people use: names in letters of either case, blank parts, blanks
around values and something behind a count. -/
def loudSettings : List Setting :=
  [⟨.top, "$Top".toList, " 1 of 2, at most".toList⟩,
    ⟨.select, "$SELECT".toList, " Name,, Title".toList⟩,
    ⟨.expand, "$eXpand".toList, "Author( $top=1;$select=Name ), Books".toList⟩]

theorem isPlain_loudSettings : ∀ s ∈ loudSettings, s.IsPlain := by
  intro s hs
  simp only [loudSettings, List.mem_cons, List.not_mem_nil, or_false] at hs
  rcases hs with rfl | rfl | rfl
  all_goals exact ⟨by decide, ⟨isBalancedFrom_iff.1 (by decide), by decide⟩, by decide⟩

theorem get?_expanded_expandQuery_library :
    let q := Setting.query loudSettings
    (IsWord "Books" ∧ (∀ s ∈ loudSettings, s.IsPlain) ∧ (loudSettings.map (·.option)).Nodup) ∧
      ((author.expanded library (Options.parse (expandQuery "Books" q)).expand).value.get? "Books"
        = some (.nestedList (answerAll library [book, book] (Options.parse q)).value)) ∧
      (book.expanded library (Options.parse (expandQuery "Author" q)).expand).value.get? "Author"
        = some (.nested (author.answer library (Options.parse q)).value) :=
  have hdistinct : (loudSettings.map (·.option)).Nodup := by decide
  ⟨⟨by decide, isPlain_loudSettings, hdistinct⟩,
    (author.get?_expanded_expandQuery library (by decide) isPlain_loudSettings hdistinct).2
      [book, book] rfl,
    (book.get?_expanded_expandQuery library (by decide) isPlain_loudSettings hdistinct).1
      author rfl⟩

end OData
