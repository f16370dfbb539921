/-
Options that occur several times inside parentheses.

At the top level the first occurrence of an option wins.  Inside parentheses that is so for the two
counts only: a second `$skip` or `$top` is passed over, while a second `$expand` or `$select` goes
on with the list of the first.  This module says what is read of options in any number and order,
and draws the line: one more occurrence of an option changes nothing exactly if it is a count, or a
term that is already there, or blank.

Main definitions:

* `Query.allMembersOf` — the members of all clauses of an option;
* `Query.Options.ofAllClauses` — the first count of each kind, and the members of all lists;
* `Query.Setting.IsSingle` — an option with a single value.

Main results:

* `Query.nodup_name_readTerms` — no relationship occurs twice among the items that are read;
* `Query.readTerms_concat_eq_self_iff` — one more term changes nothing if its item is there;
* `Query.parseNested_settings` — **inside parentheses the first count wins and lists grow**;
* `Query.parseNested_again_iff` — **when one more occurrence of an option changes nothing**.
-/

import Mathlib.Data.List.Nodup
import OData.Proofs.Query.Setting

set_option relaxedAutoImplicit false
set_option autoImplicit false

namespace OData.Query

open Text

/-! ### One more term -/

theorem map_name_mergeItem (item : ExpandItem) (items : List ExpandItem) :
    (mergeItem item items).map (·.name)
      = if item.name ∈ items.map (·.name) then items.map (·.name)
        else items.map (·.name) ++ [item.name] := by
  induction items with
  | nil => rfl
  | cons other items ih =>
      rw [mergeItem]
      by_cases hname : other.name = item.name
      · simp [hname]
      · rw [if_neg hname, List.map_cons, ih]
        by_cases hmem : item.name ∈ items.map (·.name)
        · rw [if_pos hmem, if_pos (by simp [hmem]), List.map_cons]
        · rw [if_neg hmem, if_neg (by simpa [Ne.symm hname] using hmem), List.map_cons,
            List.cons_append]

theorem nodup_name_mergeItem (item : ExpandItem) {items : List ExpandItem}
    (h : (items.map (·.name)).Nodup) : ((mergeItem item items).map (·.name)).Nodup := by
  rw [map_name_mergeItem]
  split
  · exact h
  · next hnew =>
      refine List.nodup_append.2 ⟨h, List.nodup_singleton _, ?_⟩
      intro name hname other hother hsame
      obtain rfl := List.mem_singleton.1 hother
      exact hnew (hsame ▸ hname)

theorem nodup_name_foldl_mergeItem (new : List ExpandItem) {items : List ExpandItem}
    (h : (items.map (·.name)).Nodup) :
    ((new.foldl (fun items item => mergeItem item items) items).map (·.name)).Nodup := by
  induction new generalizing items with
  | nil => exact h
  | cons item new ih => exact ih (nodup_name_mergeItem item h)

/-- No relationship occurs twice among the items that are read. -/
theorem nodup_name_readTerms (terms : List (List Char)) :
    ((readTerms terms).map (·.name)).Nodup :=
  nodup_name_foldl_mergeItem _ List.nodup_nil

/-- A term changes nothing if its item is there already. -/
theorem mergeItem_eq_self_iff {item : ExpandItem} {items : List ExpandItem}
    (h : (items.map (·.name)).Nodup) : mergeItem item items = items ↔ item ∈ items := by
  induction items with
  | nil => simp [mergeItem]
  | cons other items ih =>
      rw [List.map_cons, List.nodup_cons] at h
      rw [mergeItem, List.mem_cons]
      by_cases hname : other.name = item.name
      · have hother : item ∉ items := fun hmem => h.1 (hname ▸ List.mem_map_of_mem hmem)
        simp [hname, hother]
      · have hne : item ≠ other := fun heq => hname (heq ▸ rfl)
        simp [hname, hne, ih h.2]

theorem readTerms_concat_eq_self_iff {terms : List (List Char)} {term : List Char} :
    readTerms (terms ++ [term]) = readTerms terms ↔
      ∀ item, readTerm term = some item → item ∈ readTerms terms := by
  have hconcat : readTerms (terms ++ [term])
      = ([term].filterMap readTerm).foldl (fun items item => mergeItem item items)
        (readTerms terms) := by
    rw [readTerms, List.filterMap_append, List.foldl_append, readTerms]
  rw [hconcat]
  cases hread : readTerm term with
  | none => simp [hread]
  | some item => simp [hread, mergeItem_eq_self_iff (nodup_name_readTerms terms)]

/-! ### What all clauses set -/

/-- The members of all clauses of an option, one behind the other. -/
def allMembersOf (option : SystemOption) (clauses : List Clause) : List (List Char) :=
  (clauses.filter (·.option = option)).flatMap (·.members)

theorem allMembersOf_append (option : SystemOption) (clauses clauses' : List Clause) :
    allMembersOf option (clauses ++ clauses')
      = allMembersOf option clauses ++ allMembersOf option clauses' := by
  simp [allMembersOf]

/-- The options that some clauses set inside parentheses: the first count of each kind, and the
members of all lists. -/
def Options.ofAllClauses (clauses : List Clause) : Options where
  skip := ((clauses.find? fun c => c.option = .skip).bind fun c => readCount c.value).getD 0
  top := (clauses.find? fun c => c.option = .top).bind fun c => readLimit c.value
  expand := readTerms (allMembersOf .expand clauses)
  select := (allMembersOf .select clauses).map String.ofList

/-! ### Reading settings -/

namespace NestedState

/-- A state that has read some clauses besides what another one has: its lists have grown by all
their members, and its counts are set if they were not. -/
structure Extends (state next : NestedState) (clauses : List Clause) : Prop where
  terms : next.terms = state.terms ++ allMembersOf .expand clauses
  select : next.select = state.select ++ allMembersOf .select clauses
  skip : next.skip = state.skip.or ((clauses.find? fun c => c.option = .skip).map
    fun c => readCount c.value)
  top : next.top = state.top.or ((clauses.find? fun c => c.option = .top).map
    fun c => readLimit c.value)

theorem Extends.nil (state : NestedState) : state.Extends state [] where
  terms := by simp [allMembersOf]
  select := by simp [allMembersOf]
  skip := by simp
  top := by simp

theorem Extends.trans {state next last : NestedState} {clauses clauses' : List Clause}
    (h : state.Extends next clauses) (h' : next.Extends last clauses') :
    state.Extends last (clauses ++ clauses') where
  terms := by rw [h'.terms, h.terms, allMembersOf_append, List.append_assoc]
  select := by rw [h'.select, h.select, allMembersOf_append, List.append_assoc]
  skip := by rw [h'.skip, h.skip, List.find?_append, Option.map_or, Option.or_assoc]
  top := by rw [h'.top, h.top, List.find?_append, Option.map_or, Option.or_assoc]

theorem extends_take {state : NestedState} {clause : Clause} (hfree : state.IsFree clause.option) :
    state.Extends (state.take clause) [clause] := by
  obtain ⟨option, members⟩ := clause
  cases option <;> constructor <;> simp_all [take, allMembersOf, IsFree]

/-- The pieces of a count that has been read before are passed over. -/
theorem foldl_step_of_not_isFree {setting : Setting} (h : setting.IsPlain) (state : NestedState)
    (htaken : ¬ state.IsFree setting.option) :
    ((pieces isNestedSeparator setting.text).map trim).foldl step state
      = { state with current := none } := by
  obtain ⟨first, rest, hparts, hpieces⟩ := Setting.pieces_text h
  have hequals : '=' ∉ setting.name := SystemOption.not_mem_name h.named (by decide) (by decide)
  have hopen : '(' ∉ setting.name := SystemOption.not_mem_name h.named (by decide) (by decide)
  have hattribute : state.attribute? (trim (setting.name ++ '=' :: first))
      = (none, trim first) := by
    rw [Setting.trim_text h, state.attribute?_append_of_not_isFree
      (SystemOption.ofName?_name h.named) (SystemOption.head?_name h.named) hequals hopen htaken,
      trim_trimEnd]
  have hbare : ∀ m ∈ rest.map trim, m.head? ≠ some '$' := by
    intro m hm
    obtain ⟨part, hpart, rfl⟩ := List.mem_map.1 hm
    exact h.unnamed part (by rw [hparts]; exact hpart)
  rw [hpieces, List.map_cons, List.foldl_cons, step, hattribute]
  exact foldl_step_ignored hbare _ rfl

theorem extends_foldl_step_setting {setting : Setting} (h : setting.IsPlain)
    (state : NestedState) :
    state.Extends (((pieces isNestedSeparator setting.text).map trim).foldl step state)
      [setting.clause] := by
  by_cases hfree : state.IsFree setting.option
  · rw [foldl_step_setting h state hfree]
    exact extends_take hfree
  · rw [foldl_step_of_not_isFree h state hfree]
    -- only a count can have been taken, and it keeps the value that it has
    cases hoption : setting.option <;> rw [hoption] at hfree <;> constructor <;>
      simp_all [allMembersOf, IsFree, Option.or_of_isSome, Option.isSome_iff_ne_none]

/-- Settings are read one after the other, whether or not an option occurs several times. -/
theorem extends_foldl_step_settings {settings : List Setting} (h : ∀ s ∈ settings, s.IsPlain)
    (state : NestedState) :
    state.Extends
      ((settings.flatMap fun s => (pieces isNestedSeparator s.text).map trim).foldl step state)
      (settings.map Setting.clause) := by
  induction settings generalizing state with
  | nil => exact .nil state
  | cons setting settings ih =>
      rw [List.flatMap_cons, List.foldl_append]
      have hfirst := extends_foldl_step_setting (h setting List.mem_cons_self) state
      have hrest : ∀ s ∈ settings, s.IsPlain := by
        intro s hs
        exact h s (List.mem_cons_of_mem _ hs)
      exact hfirst.trans (ih hrest _)

end NestedState

/-- **Inside parentheses the first count wins and lists grow.** -/
theorem parseNested_settings {settings : List Setting} {q : List Char}
    (hq : Joined isNestedSeparator (settings.map Setting.text) q) (h : ∀ s ∈ settings, s.IsPlain) :
    Options.parseNested (String.ofList q) = Options.ofAllClauses (settings.map Setting.clause) := by
  cases settings with
  | nil =>
      -- the empty text has one empty piece, which is a term without a name
      cases hq
      rfl
  | cons s rest =>
      obtain ⟨hterms, hselect, hskip, htop⟩ := NestedState.extends_foldl_step_settings h {}
      rw [Options.parseNested, String.toList_ofList,
        nestedPieces_settings hq (List.cons_ne_nil _ _) h, NestedState.options, hterms, hselect,
        hskip, htop, Options.ofAllClauses]
      simp only [List.nil_append, Option.none_or, Option.bind_map, Function.comp_def, id]

/-! ### One more occurrence -/

/-- An option with a single value: its name is in letters of either case, and its value is balanced
and without a separator of depth zero. -/
structure Setting.IsSingle (setting : Setting) : Prop where
  named : sameLetters setting.name setting.option.label = true
  whole : IsWhole isNestedSeparator setting.value

instance (setting : Setting) : Decidable setting.IsSingle :=
  decidable_of_iff (sameLetters setting.name setting.option.label = true ∧
      IsWhole isNestedSeparator setting.value)
    ⟨fun h => ⟨h.1, h.2⟩, fun h => ⟨h.named, h.whole⟩⟩

namespace Setting.IsSingle

variable {setting : Setting}

theorem parts_eq (h : setting.IsSingle) : setting.parts = [setting.value] :=
  (h.whole.mono (by simp [isNestedSeparator])).pieces_eq

theorem isPlain (h : setting.IsSingle) : setting.IsPlain where
  named := h.named
  whole := h.whole.mono (by simp +contextual [isNestedSeparator, or_imp])
  unnamed := by simp [h.parts_eq]

theorem members_expand (h : setting.IsSingle) (hoption : setting.option = .expand) :
    setting.clause.members = [trim setting.value] := by
  rw [members_clause_list (.inl hoption), h.parts_eq, hoption]
  rfl

theorem members_select (h : setting.IsSingle) (hoption : setting.option = .select) :
    setting.clause.members = [trim setting.value].filter (! ·.isEmpty) := by
  rw [members_clause_list (.inr hoption), h.parts_eq, hoption]
  rfl

end Setting.IsSingle

theorem allMembersOf_concat_of_ne {option : SystemOption} {clause : Clause}
    (h : clause.option ≠ option) (clauses : List Clause) :
    allMembersOf option (clauses ++ [clause]) = allMembersOf option clauses := by
  simp [allMembersOf, h]

theorem allMembersOf_concat_of_eq {option : SystemOption} {clause : Clause}
    (h : clause.option = option) (clauses : List Clause) :
    allMembersOf option (clauses ++ [clause]) = allMembersOf option clauses ++ clause.members := by
  simp [allMembersOf, h]

/-- One more term changes nothing if its item is there. -/
theorem Setting.IsSingle.readTerms_concat_iff {setting : Setting} (h : setting.IsSingle)
    (clauses : List Clause) :
    readTerms (allMembersOf .expand (clauses ++ [setting.clause]))
        = readTerms (allMembersOf .expand clauses) ↔
      (setting.option = .expand → ∀ item, readTerm setting.value = some item →
        item ∈ readTerms (allMembersOf .expand clauses)) := by
  by_cases hoption : setting.option = .expand
  · rw [allMembersOf_concat_of_eq hoption, h.members_expand hoption, readTerms_concat_eq_self_iff,
      readTerm_trim]
    simp [hoption]
  · rw [allMembersOf_concat_of_ne hoption]
    simp [hoption]

/-- One more path changes nothing if it is blank. -/
theorem Setting.IsSingle.paths_concat_iff {setting : Setting} (h : setting.IsSingle)
    (clauses : List Clause) :
    (allMembersOf .select (clauses ++ [setting.clause])).map String.ofList
        = (allMembersOf .select clauses).map String.ofList ↔
      (setting.option = .select → trim setting.value = []) := by
  by_cases hoption : setting.option = .select
  · rw [allMembersOf_concat_of_eq hoption, h.members_select hoption]
    simp [hoption]
  · rw [allMembersOf_concat_of_ne hoption]
    simp [hoption]

/-- A clause is not found behind another one of its option. -/
theorem find?_concat_of_mem {clauses : List Clause} {clause : Clause}
    (h : clause.option ∈ clauses.map (·.option)) (option : SystemOption) :
    ((clauses ++ [clause]).find? fun c => c.option = option)
      = clauses.find? fun c => c.option = option := by
  obtain ⟨first, hfirst, hsame⟩ := List.mem_map.1 h
  rw [find?_append_cons fun hoption => ⟨first, hfirst, ?_⟩, List.append_nil]
  exact decide_eq_true (hsame.trans (of_decide_eq_true hoption))

/-- **One more occurrence of an option** inside parentheses changes nothing if it is a count.  A
term changes nothing exactly if what it asks for is asked for in the same way already, or if it asks
for nothing, and a path exactly if it is blank. -/
theorem parseNested_again_iff {settings : List Setting} {text : List Char} {again : Setting}
    {s : Char} (hs : isNestedSeparator s = true)
    (htext : Joined isNestedSeparator (settings.map Setting.text) text)
    (h : ∀ s ∈ settings, s.IsSingle) (hagain : again.IsSingle)
    (hoccurs : again.option ∈ settings.map (·.option)) :
    Options.parseNested (String.ofList (text ++ s :: again.text))
        = Options.parseNested (String.ofList text) ↔
      (again.option = .expand → ∀ item, readTerm again.value = some item →
        item ∈ (Options.parseNested (String.ofList text)).expand) ∧
      (again.option = .select → trim again.value = []) := by
  have hne : settings.map Setting.text ≠ [] := by
    intro hnil
    rw [List.map_eq_nil_iff.1 hnil] at hoccurs
    cases hoccurs
  have hlonger : Joined isNestedSeparator ((settings ++ [again]).map Setting.text)
      (text ++ s :: again.text) := by
    rw [List.map_append]
    exact htext.append hne hs (.single _) (List.cons_ne_nil _ _)
  have hplain : ∀ s ∈ settings ++ [again], s.IsPlain := by
    intro s hs
    rcases List.mem_append.1 hs with hs | hs
    · exact (h s hs).isPlain
    · exact (List.mem_singleton.1 hs).symm ▸ hagain.isPlain
  have hclauses : again.clause.option ∈ (settings.map Setting.clause).map (·.option) := by
    rwa [List.map_map]
  rw [parseNested_settings hlonger hplain, parseNested_settings htext fun s hs => (h s hs).isPlain,
    List.map_append, List.map_singleton]
  -- the counts stay as they are, and each list is looked at on its own
  simp only [Options.ofAllClauses, find?_concat_of_mem hclauses, Options.mk.injEq, true_and]
  exact and_congr (hagain.readTerms_concat_iff _) (hagain.paths_concat_iff _)

/-! ### Options behind an author -/

/-- An author with one book, and two of whatever is asked for. -/
def authorSettings : List Setting :=
  [⟨.expand, "$expand".toList, "Author($top=1)".toList⟩, ⟨.top, "$top".toList, "2".toList⟩]

/-- The text of these options. -/
def authorText : List Char := [';'].intercalate (authorSettings.map Setting.text)

/-- The same author in louder letters. -/
def authorAgain : Setting := ⟨.expand, "$EXPAND".toList, " Author ( $top=1 )".toList⟩

theorem joined_authorText :
    Joined isNestedSeparator (authorSettings.map Setting.text) authorText :=
  (joined_intercalate ';' _).mono (by simp [isNestedSeparator])

theorem parseNested_again_iff_author :
    ((∀ s ∈ authorSettings, s.IsSingle) ∧ authorAgain.IsSingle ∧
      authorAgain.option ∈ authorSettings.map (·.option)) ∧
    Options.parseNested (String.ofList (authorText ++ ';' :: authorAgain.text))
      = Options.parseNested (String.ofList authorText) := by
  have hsettings : ∀ s ∈ authorSettings, s.IsSingle := by decide
  have hagain : authorAgain.IsSingle := by decide
  have hoccurs : authorAgain.option ∈ authorSettings.map (·.option) := by decide
  refine ⟨⟨hsettings, hagain, hoccurs⟩, ?_⟩
  refine (parseNested_again_iff rfl joined_authorText hsettings hagain hoccurs).2
    ⟨fun _ item hitem => ?_, by decide⟩
  obtain rfl : ⟨"Author", "$top=1"⟩ = item := Option.some.inj hitem
  decide

/-- A selection of one path, and one of another path behind it. -/
def pathSettings : List Setting := [listSetting .select ["ID"], listSetting .select ["Name"]]

/-- The second list of paths goes on with the first, although its option has occurred. -/
theorem parseNested_again_pathSettings :
    (∀ s ∈ pathSettings, s.IsSingle) ∧ pathSettings.map (·.option) = [.select, .select] ∧
      [';'].intercalate (pathSettings.map Setting.text) = "$select=ID;$select=Name".toList ∧
      (Options.parseNested "$select=ID").select = ["ID"] ∧
      (Options.parseNested "$select=ID;$select=Name").select = ["ID", "Name"] := by
  decide

end OData.Query
