/-
A query in parentheses is read like a query.

The two readings of a query cut its text at different places and keep different accounts of what has
been set.  This module proves that they come to the same result wherever that can be expected: on
options joined by `&`, each of them at most once, whose values are balanced, have no other separator
than commas at depth zero, and have no part behind a comma that could be taken for an option of its
own.  Names may be written in letters of either case, and values may be of any shape otherwise:
blank parts, counts with something behind them, terms that occur twice.

Main definitions:

* `Query.Setting` — an option with its name and its value as they are written;
* `Query.Setting.IsPlain` — a setting that both readings understand alike;
* `Query.Setting.clause` — the clause that both readings make of it;
* `Query.listSetting` — an option that is set to several plain texts.

Main results:

* `Query.ofAssignments_settings` — reading at the top level;
* `Query.options_settings` — reading inside parentheses;
* `Query.parseNested_trim_eq_parse` — **both come to the same options**;
* `Query.isPlain_listSetting`, `Query.members_clause_listSetting` — a list of plain texts is read as
  these texts.
-/

import Mathlib.Data.List.Find
import OData.Proofs.Query.Spelling

set_option relaxedAutoImplicit false
set_option autoImplicit false

namespace OData.Query

open Text

/-! ### Settings -/

/-- An option with its name and its value as they are written. -/
structure Setting where
  option : SystemOption
  name : List Char
  value : List Char

namespace Setting

/-- The name of the option, an equals sign and the value. -/
def text (setting : Setting) : List Char := setting.name ++ '=' :: setting.value

/-- The parts of the value between its commas of depth zero. -/
def parts (setting : Setting) : List (List Char) := pieces (· == ',') setting.value

/-- A setting that both readings understand alike: its name is that of the option in letters of
either case, its value is balanced and has no `;` and no `&` at depth zero, and no part behind a
comma begins with a dollar sign. -/
structure IsPlain (setting : Setting) : Prop where
  named : sameLetters setting.name setting.option.label = true
  whole : IsWhole (fun c => c == ';' || c == '&') setting.value
  unnamed : ∀ part ∈ setting.parts.tail, (trim part).head? ≠ some '$'

/-- The clause that both readings make of a setting: the parts of a list, the blank paths left out,
or the value of a count. -/
def clause (setting : Setting) : Clause where
  option := setting.option
  members :=
    match setting.option with
    | .skip | .top => [setting.value]
    | list => list.kept (setting.parts.map trim)

@[simp] theorem option_clause (setting : Setting) : setting.clause.option = setting.option := rfl

variable {setting : Setting}

theorem value_clause_count (h : setting.option = .skip ∨ setting.option = .top) :
    setting.clause.value = setting.value := by
  rcases h with h | h <;> simp [clause, Clause.value, h]

theorem members_clause_list (h : setting.option = .expand ∨ setting.option = .select) :
    setting.clause.members = setting.option.kept (setting.parts.map trim) := by
  rcases h with h | h <;> simp [clause, h]

/-- The name and the equals sign are never taken apart. -/
theorem isWhole_front (h : setting.IsPlain) :
    IsWhole isNestedSeparator (setting.name ++ ['=']) := by
  have hplain : ∀ c ∈ setting.name ++ ['='], c = '$' ∨ c.isAlpha = true ∨ c = '=' := by
    intro c hc
    rcases List.mem_append.1 hc with hc | hc
    · exact (SystemOption.eq_dollar_or_isAlpha h.named hc).imp_right .inl
    · exact .inr (.inr (List.mem_singleton.1 hc))
  refine .of_forall (fun c hc => ?_) fun c hc => ?_
  · rintro (rfl | rfl) <;> exact absurd (hplain _ hc) (by decide)
  · cases hc' : isNestedSeparator c with
    | false => rfl
    | true =>
        simp only [isNestedSeparator, Bool.or_eq_true, beq_iff_eq] at hc'
        rcases hc' with (rfl | rfl) | rfl <;> exact absurd (hplain _ hc) (by decide)

theorem isWhole_text (h : setting.IsPlain) : IsWhole (· == '&') setting.text := by
  have hname : IsWhole (· == '&') (setting.name ++ ['=']) :=
    (isWhole_front h).mono (by simp [isNestedSeparator])
  have hvalue : IsWhole (· == '&') setting.value := h.whole.mono (by simp)
  simpa [text] using hname.append hvalue

theorem exists_name_eq (h : setting.IsPlain) : ∃ rest, setting.name = '$' :: rest :=
  List.head?_eq_some_iff.1 (SystemOption.head?_name h.named)

theorem trim_text (h : setting.IsPlain) (value : List Char) :
    trim (setting.name ++ '=' :: value) = setting.name ++ '=' :: trimEnd value := by
  obtain ⟨rest, hrest⟩ := exists_name_eq h
  have hplain : ∀ c ∈ rest ++ ['='], isBlank c = false := by
    intro c hc
    rcases List.mem_append.1 hc with hc | hc
    · exact SystemOption.isBlank_name h.named c (hrest ▸ List.mem_cons_of_mem _ hc)
    · rw [List.mem_singleton.1 hc]
      rfl
  have hend := trimEnd_append_of_forall hplain value
  rw [hrest, List.cons_append, trim_cons rfl]
  simpa using hend

end Setting

/-! ### Reading at the top level -/

theorem assignment_setting {setting : Setting} (h : setting.IsPlain) :
    assignment setting.text = (setting.name, trim setting.value) := by
  have hequals : '=' ∉ setting.name := SystemOption.not_mem_name h.named (by decide) (by decide)
  have htrim : trim setting.name = setting.name :=
    (isTrimmed_of_forall (SystemOption.isBlank_name h.named)).trim_eq
  rw [assignment, Setting.text, splitOnce_append hequals]
  simp only [htrim]

/-- A text of settings begins with a dollar sign, so that no question mark is taken off. -/
theorem withoutMark_settings {setting : Setting} {rest : List Setting} {q : List Char}
    (hq : Joined (· == '&') ((setting :: rest).map Setting.text) q) (h : setting.IsPlain) :
    withoutMark q = trim q := by
  obtain ⟨name, hname⟩ := Setting.exists_name_eq h
  obtain ⟨behind, rfl, -⟩ := hq.exists_eq_append
  rw [withoutMark, Setting.text, hname, List.cons_append, List.cons_append, trim_cons rfl]
  rfl

theorem map_trim_pieces_settings {setting : Setting} {rest : List Setting} {q : List Char}
    (hq : Joined (· == '&') ((setting :: rest).map Setting.text) q)
    (h : ∀ s ∈ setting :: rest, s.IsPlain) :
    (pieces (· == '&') (trim q)).map trim = ((setting :: rest).map Setting.text).map trim := by
  have hpieces : pieces (· == '&') q = (setting :: rest).map Setting.text := by
    refine pieces_of_joined hq (by simp) fun text htext => ?_
    obtain ⟨s, hs, rfl⟩ := List.mem_map.1 htext
    exact Setting.isWhole_text (h s hs)
  rw [map_trim_pieces_trim (by simp; rfl), hpieces]

/-- Settings joined by `&` are the assignments of the text. -/
theorem assignments_settings {settings : List Setting} {q : List Char}
    (hq : Joined (· == '&') (settings.map Setting.text) q) (h : ∀ s ∈ settings, s.IsPlain) :
    assignments q = settings.map fun s => (s.name, trim s.value) := by
  cases settings with
  | nil =>
      cases hq
      rfl
  | cons setting rest =>
      have hmark := withoutMark_settings hq (h setting List.mem_cons_self)
      have htrimmed := map_trim_pieces_settings hq h
      -- no piece is left out, since there is something in each of them
      have hfilter : (pieces (· == '&') (trim q)).filter (! ·.isEmpty)
          = pieces (· == '&') (trim q) := by
        rw [List.filter_eq_self]
        intro piece hpiece
        have hmem : trim piece ∈ ((setting :: rest).map Setting.text).map trim :=
          htrimmed ▸ List.mem_map_of_mem hpiece
        obtain ⟨text, htext, heq⟩ := List.mem_map.1 hmem
        obtain ⟨s, hs, rfl⟩ := List.mem_map.1 htext
        rw [Setting.text, Setting.trim_text (h s hs)] at heq
        cases piece with
        | nil => simp at heq
        | cons => rfl
      have hassignment : assignment ∘ trim = assignment := funext assignment_trim
      calc assignments q
          = (pieces (· == '&') (trim q)).map assignment := by rw [assignments, hmark, hfilter]
        _ = ((pieces (· == '&') (trim q)).map trim).map assignment := by
            rw [List.map_map, hassignment]
        _ = ((setting :: rest).map Setting.text).map assignment := by
            rw [htrimmed, List.map_map, hassignment]
        _ = (setting :: rest).map fun s => (s.name, trim s.value) := by
            rw [List.map_map]
            exact List.map_congr_left fun s hs => assignment_setting (h s hs)

theorem firstValue_settings (option : SystemOption) {settings : List Setting}
    (h : ∀ s ∈ settings, s.IsPlain) :
    firstValue option (settings.map fun s => (s.name, trim s.value))
      = (settings.find? fun s => s.option = option).map fun s => trim s.value := by
  have hfind : settings.find? (fun s => SystemOption.ofName? s.name = some option)
      = settings.find? fun s => s.option = option := by
    refine List.find?_congr fun s hs => ?_
    rw [SystemOption.ofName?_name (h s hs).named]
    simp
  rw [firstValue, List.find?_map, Option.map_map]
  exact congrArg (Option.map fun s : Setting => trim s.value) hfind

/-- **Reading at the top level** comes to the clauses of the settings. -/
theorem ofAssignments_settings {settings : List Setting} {q : List Char}
    (hq : Joined (· == '&') (settings.map Setting.text) q) (h : ∀ s ∈ settings, s.IsPlain) :
    Options.ofAssignments (assignments q) = Options.ofClauses (settings.map Setting.clause) := by
  have hfind : ∀ option, (settings.map Setting.clause).find? (fun c => c.option = option)
      = (settings.find? fun s => s.option = option).map Setting.clause := by
    intro option
    rw [List.find?_map]
    rfl
  have hoption : ∀ {option s}, (settings.find? fun s => s.option = option) = some s →
      s.option = option := by
    intro option s hs
    simpa using List.find?_some hs
  have hskip : ((settings.find? fun s => s.option = .skip).bind fun s => readCount (trim s.value))
      = (settings.find? fun s => s.option = .skip).bind fun s => readCount s.clause.value := by
    refine Option.bind_congr fun s hs => ?_
    rw [readCount_trim, Setting.value_clause_count (.inl (hoption hs))]
  have htop : ((settings.find? fun s => s.option = .top).bind fun s => readLimit (trim s.value))
      = (settings.find? fun s => s.option = .top).bind fun s => readLimit s.clause.value := by
    refine Option.bind_congr fun s hs => ?_
    rw [readLimit_trim, Setting.value_clause_count (.inr (hoption hs))]
  have hexpand : ((settings.find? fun s => s.option = .expand).map
        fun s => readExpand (trim s.value))
      = (settings.find? fun s => s.option = .expand).map fun s => readTerms s.clause.members := by
    refine Option.map_congr fun s hs => ?_
    rw [readExpand_trim, Setting.members_clause_list (.inl (hoption hs)), hoption hs]
    rfl
  have hselect : ((settings.find? fun s => s.option = .select).map
        fun s => readSelect (trim s.value))
      = (settings.find? fun s => s.option = .select).map
          fun s => s.clause.members.map String.ofList := by
    refine Option.map_congr fun s hs => ?_
    rw [readSelect_trim, Setting.members_clause_list (.inr (hoption hs)), hoption hs]
    rfl
  rw [assignments_settings hq h]
  simp only [Options.ofAssignments, Options.ofClauses, membersOf, firstValue_settings _ h, hfind,
    Option.bind_map, Option.map_map, Function.comp_def, hskip, htop, hexpand, hselect]
  congr 1
  · cases settings.find? fun s => s.option = .expand <;> rfl
  · cases settings.find? fun s => s.option = .select <;> rfl

/-! ### Reading inside parentheses -/

/-- Inside parentheses a setting falls apart at the commas of its value. -/
theorem Setting.pieces_text {setting : Setting} (h : setting.IsPlain) :
    ∃ first rest, setting.parts = first :: rest ∧
      pieces isNestedSeparator setting.text = (setting.name ++ '=' :: first) :: rest := by
  obtain ⟨first, rest, hparts⟩ := exists_piecesFrom_eq_cons (· == ',') 0 setting.value
  refine ⟨first, rest, hparts, ?_⟩
  have hseparators : isNestedSeparator = fun c => c == ',' || (c == ';' || c == '&') := by
    funext c
    rw [isNestedSeparator, Bool.or_assoc]
  have hvalue : pieces isNestedSeparator setting.value = first :: rest := by
    rw [hseparators, pieces_or (by simp [IsParenthesis]) h.whole.pieces_eq]
    exact hparts
  have hfront : IsWhole isNestedSeparator (setting.name ++ ['=']) := isWhole_front h
  have htext : setting.text = (setting.name ++ ['=']) ++ setting.value := by simp [text]
  rw [htext, pieces_append_left hfront, hvalue, foldr_consFirst_cons]
  simp

namespace NestedState

/-- Behind a count, a piece that does not begin with a dollar sign belongs to nothing. -/
theorem foldl_step_ignored {ms : List (List Char)} (hms : ∀ m ∈ ms, m.head? ≠ some '$')
    (state : NestedState) (hcurrent : state.current = none) : ms.foldl step state = state := by
  induction ms with
  | nil => rfl
  | cons m ms ih =>
      have hstep : state.step m = state := by
        rw [step, state.attribute?_bare (hms m List.mem_cons_self), hcurrent]
        cases state
        exact congrArg (mk · _ _ _ _) hcurrent.symm
      rw [List.foldl_cons, hstep, ih fun m' hm' => hms m' (List.mem_cons_of_mem _ hm')]

/-- The pieces of a setting are read as its clause. -/
theorem foldl_step_setting {setting : Setting} (h : setting.IsPlain) (state : NestedState)
    (hfree : state.IsFree setting.option) :
    ((pieces isNestedSeparator setting.text).map trim).foldl step state
      = state.take setting.clause := by
  obtain ⟨first, rest, hparts, hpieces⟩ := Setting.pieces_text h
  have hattribute : state.attribute? (trim (setting.name ++ '=' :: first))
      = (some setting.option, trim first) := by
    have hequals : '=' ∉ setting.name := SystemOption.not_mem_name h.named (by decide) (by decide)
    have hopen : '(' ∉ setting.name := SystemOption.not_mem_name h.named (by decide) (by decide)
    rw [Setting.trim_text h, state.attribute?_append (SystemOption.ofName?_name h.named)
      (SystemOption.head?_name h.named) hequals hopen hfree, trim_trimEnd]
  have hbare : ∀ m ∈ rest.map trim, m.head? ≠ some '$' := by
    intro m hm
    obtain ⟨part, hpart, rfl⟩ := List.mem_map.1 hm
    exact h.unnamed part (by rw [hparts]; exact hpart)
  have hcount : readCount (trim first) = readCount setting.value := by
    rw [readCount_trim, readCount_of_pieces hparts]
  have hlimit : readLimit (trim first) = readLimit setting.value := by
    rw [readLimit, hcount, readLimit]
  rw [hpieces, List.map_cons, List.foldl_cons, step, hattribute]
  -- the first piece names the option; the others continue a list, and mean nothing behind a count
  cases hoption : setting.option with
  | skip =>
      rw [foldl_step_ignored hbare _ rfl]
      simp only [take, Setting.option_clause, hoption, Setting.value_clause_count (.inl hoption),
        hcount]
  | top =>
      rw [foldl_step_ignored hbare _ rfl]
      simp only [take, Setting.option_clause, hoption, Setting.value_clause_count (.inr hoption),
        hlimit]
  | expand =>
      have hmembers : setting.clause.members = [trim first] ++ rest.map trim := by
        rw [Setting.members_clause_list (.inl hoption), hparts, hoption]
        rfl
      simp only
      rw [foldl_step_bare (.inl rfl) hbare _ rfl]
      simp only [take, Setting.option_clause, hoption, hmembers, SystemOption.kept,
        List.append_assoc]
  | select =>
      have hmembers : setting.clause.members
          = SystemOption.select.kept [trim first] ++ SystemOption.select.kept (rest.map trim) := by
        rw [Setting.members_clause_list (.inr hoption), hparts, hoption, List.map_cons,
          SystemOption.kept_cons]
      simp only
      rw [foldl_step_bare (.inr rfl) hbare _ rfl]
      simp only [take, Setting.option_clause, hoption, hmembers, ← List.append_assoc]
      cases trim first <;> simp [SystemOption.kept]

/-- The pieces of several settings are read as their clauses, one after the other. -/
theorem foldl_step_settings {settings : List Setting} (h : ∀ s ∈ settings, s.IsPlain)
    (hdistinct : (settings.map (·.option)).Nodup) (state : NestedState)
    (hfree : ∀ s ∈ settings, state.IsFree s.option) :
    (settings.flatMap fun s => (pieces isNestedSeparator s.text).map trim).foldl step state
      = (settings.map Setting.clause).foldl take state := by
  induction settings generalizing state with
  | nil => rfl
  | cons s settings ih =>
      rw [List.map_cons, List.nodup_cons] at hdistinct
      rw [List.flatMap_cons, List.foldl_append, List.map_cons, List.foldl_cons,
        foldl_step_setting (h s List.mem_cons_self) state (hfree s List.mem_cons_self)]
      refine ih (fun s' hs' => h s' (List.mem_cons_of_mem _ hs')) hdistinct.2 _ fun s' hs' => ?_
      refine (hfree s' (List.mem_cons_of_mem _ hs')).take fun heq => ?_
      have heq : s.option = s'.option := heq
      exact hdistinct.1 (heq ▸ List.mem_map_of_mem hs')

end NestedState

/-- Settings are read one after the other, whatever separates them. -/
theorem nestedPieces_settings {settings : List Setting} {q : List Char}
    (hq : Joined isNestedSeparator (settings.map Setting.text) q) (hne : settings ≠ [])
    (h : ∀ s ∈ settings, s.IsPlain) :
    nestedPieces q = settings.flatMap fun s => (pieces isNestedSeparator s.text).map trim := by
  have hparen : ∀ c, isNestedSeparator c = true → ¬ IsParenthesis c := by
    simp +contextual [isNestedSeparator, IsParenthesis, or_imp]
  have hclosed : ∀ text ∈ settings.map Setting.text, depth text = 0 := by
    intro text htext
    obtain ⟨s, hs, rfl⟩ := List.mem_map.1 htext
    exact (Setting.isWhole_text (h s hs)).balanced.depth_eq
  rw [nestedPieces, hq.pieces_flatMap hparen (by simpa using hne) hclosed, List.flatMap_map,
    List.map_flatMap]

/-- **Reading inside parentheses** comes to the clauses of the settings as well. -/
theorem options_settings {settings : List Setting} {q : List Char}
    (hq : Joined (· == '&') (settings.map Setting.text) q) (h : ∀ s ∈ settings, s.IsPlain)
    (hdistinct : (settings.map (·.option)).Nodup) :
    ((nestedPieces q).foldl NestedState.step {}).options
      = Options.ofClauses (settings.map Setting.clause) := by
  cases settings with
  | nil =>
      -- the empty text has one empty piece, which is a term without a name
      cases hq
      rfl
  | cons s rest =>
      have hclauses : (((s :: rest).map Setting.clause).map (·.option)).Nodup := by
        rwa [List.map_map]
      have hfree : ∀ s' ∈ s :: rest, ({} : NestedState).IsFree s'.option := by
        intro s' _
        cases s'.option <;> trivial
      have hnested : Joined isNestedSeparator ((s :: rest).map Setting.text) q :=
        hq.mono (by simp [isNestedSeparator])
      rw [nestedPieces_settings hnested (List.cons_ne_nil _ _) h,
        NestedState.foldl_step_settings h hdistinct {} hfree,
        NestedState.options_foldl_take hclauses]

/-- **Inside parentheses, options joined by `&` are read as at the top level.** -/
theorem parseNested_trim_eq_parse {settings : List Setting} {q : List Char}
    (hq : Joined (· == '&') (settings.map Setting.text) q) (h : ∀ s ∈ settings, s.IsPlain)
    (hdistinct : (settings.map (·.option)).Nodup) :
    Options.parseNested (String.ofList (trim q)) = Options.parse (String.ofList q) := by
  have hblank : ∀ c, isNestedSeparator c = true → isBlank c = false := by
    intro c hc
    simp only [isNestedSeparator, Bool.or_eq_true, beq_iff_eq] at hc
    rcases hc with (rfl | rfl) | rfl <;> rfl
  have htrim : nestedPieces (trim q) = nestedPieces q := map_trim_pieces_trim hblank q
  rw [Options.parseNested, String.toList_ofList, htrim, options_settings hq h hdistinct,
    Options.parse, String.toList_ofList, ofAssignments_settings hq h]

/-! ### Lists of plain texts -/

/-- A text that can stand in a list: it is not blank, and it has none of the characters with a
meaning. -/
structure IsEntry (text : String) : Prop where
  ne_blank : trim text.toList ≠ []
  plain : ∀ c ∈ text.toList, c ∉ ['(', ')', ',', ';', '&', '=', '$']

theorem IsWord.isEntry {name : String} (h : IsWord name) : IsEntry name where
  ne_blank := h.trimmed.trim_eq.symm ▸ h.ne_nil
  plain := h.plain

/-- An option that is set to several texts, with commas between them. -/
def listSetting (option : SystemOption) (texts : List String) : Setting :=
  ⟨option, option.label, [','].intercalate (texts.map String.toList)⟩

section

variable {option : SystemOption} {texts : List String}

theorem parts_listSetting (hne : texts ≠ []) (h : ∀ text ∈ texts, IsEntry text) :
    (listSetting option texts).parts = texts.map String.toList := by
  refine pieces_of_joined (joined_intercalate ',' _) (by simpa using hne) fun part hpart => ?_
  obtain ⟨text, htext, rfl⟩ := List.mem_map.1 hpart
  exact (isWhole_of_plain (h text htext).plain).mono (by simp [isNestedSeparator])

theorem isPlain_listSetting (hne : texts ≠ []) (h : ∀ text ∈ texts, IsEntry text) :
    (listSetting option texts).IsPlain where
  named := sameLetters_refl _
  whole := by
    refine (joined_intercalate ',' _).isWhole (by simp [IsParenthesis]) (by simp) fun part hpart => ?_
    obtain ⟨text, htext, rfl⟩ := List.mem_map.1 hpart
    exact (isWhole_of_plain (h text htext).plain).mono
      (by simp +contextual [isNestedSeparator, or_imp])
  unnamed part hpart hdollar := by
    rw [parts_listSetting hne h] at hpart
    obtain ⟨text, htext, rfl⟩ := List.mem_map.1 (List.mem_of_mem_tail hpart)
    have hmem : '$' ∈ text.toList := (sublist_trim _).subset (List.mem_of_mem_head? hdollar)
    exact (h text htext).plain _ hmem (by simp)

/-- The members of a list are its texts, less the blanks around them. -/
theorem members_clause_listSetting (hoption : option = .expand ∨ option = .select) (hne : texts ≠ [])
    (h : ∀ text ∈ texts, IsEntry text) :
    (listSetting option texts).clause.members = texts.map fun text => trim text.toList := by
  rw [Setting.members_clause_list hoption, parts_listSetting hne h, List.map_map]
  refine SystemOption.kept_eq_self fun m hm => ?_
  obtain ⟨text, htext, rfl⟩ := List.mem_map.1 hm
  exact (h text htext).ne_blank

end

end OData.Query
