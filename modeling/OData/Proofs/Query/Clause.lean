/-
Options as they are written, and both readings of them.

A clause is an option with the members of its value: the digits of a count, the paths of `$select`,
the terms of `$expand`.  At the top level clauses are separated by `&` and a value is cut at its
commas afterwards; inside parentheses a comma may as well lead to the next clause, and a member is
told from a clause by its lack of a name.  This module proves that both readings find the same
clauses, as long as each option occurs once and no member can be mistaken for anything else.

Main definitions:

* `Query.Clause`, `Query.Clause.text` — an option with its members, and how it is written;
* `Query.IsMember`, `Query.Clause.Sound` — members that stay in one piece, clauses made of them;
* `Query.Options.ofClauses` — the options that some clauses set.

Main results:

* `Query.ofAssignments_of_joined` — clauses joined by `&` are read at the top level;
* `Query.options_of_joined` — **clauses joined by any separators are read inside parentheses**, with
  the same result;
* `Query.ofClauses_eq_of_perm` — the order of clauses does not matter.
-/

import OData.Proofs.Lookup
import OData.Proofs.Query.Joined
import OData.Query.Assignment
import OData.Query.Nested

set_option relaxedAutoImplicit false
set_option autoImplicit false

namespace OData.Query

open Text

/-! ### Names of options -/

/-- The name of an option as it is written. -/
def SystemOption.label : SystemOption → List Char
  | skip => ['$', 's', 'k', 'i', 'p']
  | top => ['$', 't', 'o', 'p']
  | expand => ['$', 'e', 'x', 'p', 'a', 'n', 'd']
  | select => ['$', 's', 'e', 'l', 'e', 'c', 't']

namespace SystemOption

@[simp] theorem ofName?_label (option : SystemOption) : ofName? option.label = some option := by
  cases option <;> decide

theorem isTrimmed_label (option : SystemOption) : IsTrimmed option.label := by
  cases option <;> decide

theorem label_ne_nil (option : SystemOption) : option.label ≠ [] := by
  cases option <;> decide

theorem equals_not_mem_label (option : SystemOption) : '=' ∉ option.label := by
  cases option <;> decide

theorem isWhole_label_append (option : SystemOption) :
    IsWhole isNestedSeparator (option.label ++ ['=']) := by
  have hall : ((option.label ++ ['=']).all fun c =>
      !isNestedSeparator c && c ∉ ['(', ')']) = true := by
    cases option <;> decide
  refine .of_forall (fun c hc => ?_) fun c hc => ?_
  · have hplain := List.all_eq_true.1 hall c hc
    simpa [IsParenthesis] using (Bool.and_eq_true_iff.1 hplain).2
  · have hplain := List.all_eq_true.1 hall c hc
    simpa using (Bool.and_eq_true_iff.1 hplain).1

/-- What an option keeps of the parts of a list: blank paths are left out. -/
def kept : SystemOption → List (List Char) → List (List Char)
  | select, ms => ms.filter (! ·.isEmpty)
  | _, ms => ms

theorem kept_cons (option : SystemOption) (m : List Char) (ms : List (List Char)) :
    option.kept (m :: ms) = option.kept [m] ++ option.kept ms := by
  cases option with
  | select => cases m <;> rfl
  | skip => rfl
  | top => rfl
  | expand => rfl

theorem kept_eq_self {option : SystemOption} {ms : List (List Char)} (h : ∀ m ∈ ms, m ≠ []) :
    option.kept ms = ms := by
  cases option with
  | select => exact List.filter_eq_self.2 fun m hm => by simpa using h m hm
  | skip => rfl
  | top => rfl
  | expand => rfl

end SystemOption

theorem splitOnce_append {mark : Char} {a : List Char} (h : mark ∉ a) (b : List Char) :
    splitOnce mark (a ++ mark :: b) = some (a, b) := by
  induction a with
  | nil => simp [splitOnce]
  | cons c a ih =>
      have hc : c ≠ mark := fun hc => h (hc ▸ List.mem_cons_self)
      have ha : mark ∉ a := fun ha => h (List.mem_cons_of_mem _ ha)
      simp [splitOnce, hc, ih ha]

theorem splitOnce_eq_none {mark : Char} {cs : List Char} (h : mark ∉ cs) :
    splitOnce mark cs = none := by
  induction cs with
  | nil => rfl
  | cons c cs ih =>
      have hc : c ≠ mark := fun hc => h (hc ▸ List.mem_cons_self)
      simp [splitOnce, hc, ih fun hcs => h (List.mem_cons_of_mem _ hcs)]

theorem notMem_of_splitOnce {mark : Char} {cs before after : List Char}
    (h : splitOnce mark cs = some (before, after)) : mark ∉ before := by
  induction cs generalizing before with
  | nil => cases h
  | cons c cs ih =>
      unfold splitOnce at h
      split at h
      · obtain ⟨rfl, rfl⟩ := Prod.mk.inj (Option.some.inj h)
        exact List.not_mem_nil
      · next hc =>
          obtain ⟨parts, hparts, heq⟩ := Option.map_eq_some_iff.1 h
          obtain ⟨rfl, rfl⟩ := Prod.mk.inj heq
          rw [List.mem_cons, not_or]
          exact ⟨Ne.symm hc, ih hparts⟩

theorem notMem_of_splitOnce_eq_none {mark : Char} {cs : List Char} (h : splitOnce mark cs = none) :
    mark ∉ cs := by
  induction cs with
  | nil => exact List.not_mem_nil
  | cons c cs ih =>
      unfold splitOnce at h
      split at h
      · cases h
      · next hc =>
          rw [List.mem_cons, not_or]
          exact ⟨Ne.symm hc, ih (Option.map_eq_none_iff.1 h)⟩

/-! ### Members and clauses -/

/-- A text that stays in one piece between separators and is not taken for a named one. -/
structure IsMember (cs : List Char) : Prop where
  whole : IsWhole isNestedSeparator cs
  ne_nil : cs ≠ []
  trimmed : IsTrimmed cs
  unnamed : cs.head? ≠ some '$'

/-- An option with the members of its value. -/
structure Clause where
  option : SystemOption
  members : List (List Char)
deriving DecidableEq

namespace Clause

/-- The members between commas. -/
def value (clause : Clause) : List Char := [','].intercalate clause.members

/-- The name of the option, an equals sign and the value. -/
def text (clause : Clause) : List Char := clause.option.label ++ '=' :: clause.value

/-- The pieces of a clause where commas separate: the first one carries the name. -/
def pieces (clause : Clause) : List (List Char) :=
  match clause.members with
  | [] => []
  | m :: rest => (clause.option.label ++ '=' :: m) :: rest

/-- A clause that can be read: it has members, and a count has one. -/
structure Sound (clause : Clause) : Prop where
  ne_nil : clause.members ≠ []
  isMember : ∀ m ∈ clause.members, IsMember m
  count : clause.option = .skip ∨ clause.option = .top → clause.members = [clause.value]

variable {clause : Clause}

theorem Sound.trimmed_value (h : clause.Sound) : IsTrimmed clause.value ∧ clause.value ≠ [] := by
  have := (joined_intercalate ',' clause.members).isTrimmed fun m hm =>
    ⟨(h.isMember m hm).ne_nil, (h.isMember m hm).trimmed⟩
  exact ⟨this.1, this.2 h.ne_nil⟩

theorem Sound.trimmed_text (h : clause.Sound) : IsTrimmed clause.text := by
  have := clause.option.isTrimmed_label.between clause.option.label_ne_nil h.trimmed_value.1
    h.trimmed_value.2 ['=']
  simpa [text] using this

theorem text_ne_nil (clause : Clause) : clause.text ≠ [] := by
  simp [text]

theorem head?_text (clause : Clause) : clause.text.head? = some '$' := by
  rw [text]
  cases clause.option <;> rfl

/-- A clause starts with its name and its first member and goes on with the other members. -/
theorem joined_pieces (h : clause.members ≠ []) :
    Joined (· == ',') clause.pieces clause.text := by
  have hjoin := joined_intercalate ',' clause.members
  rw [pieces, text, value]
  revert hjoin
  cases hm : clause.members with
  | nil => exact absurd hm h
  | cons m rest =>
      intro hjoin
      generalize [','].intercalate (m :: rest) = value at hjoin ⊢
      cases hjoin with
      | single => exact .single _
      | cons hs hrest =>
          rw [← List.cons_append, ← List.append_assoc]
          exact .cons hs hrest

theorem pieces_ne_nil (h : clause.members ≠ []) : clause.pieces ≠ [] := by
  rw [pieces]
  cases hm : clause.members with
  | nil => exact absurd hm h
  | cons m rest => simp

theorem Sound.isWhole_of_mem_pieces (h : clause.Sound) {p : List Char} (hp : p ∈ clause.pieces) :
    IsWhole isNestedSeparator p ∧ IsTrimmed p := by
  have hmembers := h.isMember
  rw [pieces] at hp
  cases hm : clause.members with
  | nil => exact absurd hm h.ne_nil
  | cons m rest =>
      rw [hm] at hp hmembers
      rcases List.mem_cons.1 hp with rfl | hp
      · have hfirst := hmembers m List.mem_cons_self
        constructor
        · simpa using (clause.option.isWhole_label_append).append hfirst.whole
        · simpa using clause.option.isTrimmed_label.between clause.option.label_ne_nil
            hfirst.trimmed hfirst.ne_nil ['=']
      · have hother := hmembers p (List.mem_cons_of_mem _ hp)
        exact ⟨hother.whole, hother.trimmed⟩

/-- No separator of the top level takes a clause apart. -/
theorem Sound.isWhole_text (h : clause.Sound) : IsWhole (· == '&') clause.text := by
  have hlabel : IsWhole (· == '&') (clause.option.label ++ ['=']) :=
    clause.option.isWhole_label_append.mono (by simp [isNestedSeparator])
  have hvalue : IsWhole (· == '&') clause.value := by
    have hjoin := joined_intercalate ',' clause.members
    have hwhole : ∀ m ∈ clause.members, IsWhole (· == '&') m := fun m hm =>
      (h.isMember m hm).whole.mono (by simp [isNestedSeparator])
    exact hjoin.isWhole (by simp [IsParenthesis]) (by simp) hwhole
  simpa [text] using hlabel.append hvalue

end Clause

/-! ### Joined clauses -/

theorem balanced_of_joined {clauses : List Clause} {content : List Char}
    (h : Joined isNestedSeparator (clauses.map Clause.text) content)
    (hsound : ∀ c ∈ clauses, c.Sound) : Balanced 0 content := by
  refine h.balanced (by simp +contextual [isNestedSeparator, IsParenthesis, or_imp]) fun text htext => ?_
  obtain ⟨c, hc, rfl⟩ := List.mem_map.1 htext
  exact (hsound c hc).isWhole_text.balanced

theorem trimmed_of_joined {isSeparator : Char → Bool} {clauses : List Clause} {content : List Char}
    (h : Joined isSeparator (clauses.map Clause.text) content)
    (hsound : ∀ c ∈ clauses, c.Sound) : IsTrimmed content := by
  refine (h.isTrimmed fun text htext => ?_).1
  obtain ⟨c, hc, rfl⟩ := List.mem_map.1 htext
  exact ⟨c.text_ne_nil, (hsound c hc).trimmed_text⟩

/-! ### What clauses set -/

/-- The members of the clause of an option; none if there is no such clause. -/
def membersOf (option : SystemOption) (clauses : List Clause) : List (List Char) :=
  ((clauses.find? fun c => c.option = option).map (·.members)).getD []

/-- The options that some clauses set. -/
def Options.ofClauses (clauses : List Clause) : Options where
  skip := ((clauses.find? fun c => c.option = .skip).bind fun c => readCount c.value).getD 0
  top := (clauses.find? fun c => c.option = .top).bind fun c => readLimit c.value
  expand := readTerms (membersOf .expand clauses)
  select := (membersOf .select clauses).map String.ofList

/-- The order of clauses does not matter if no option occurs twice. -/
theorem ofClauses_eq_of_perm {clauses clauses' : List Clause} (hperm : clauses.Perm clauses')
    (h : (clauses'.map (·.option)).Nodup) :
    Options.ofClauses clauses = Options.ofClauses clauses' := by
  simp only [Options.ofClauses, membersOf, find?_eq_of_perm Clause.option hperm h]

theorem membersOf_cons (option : SystemOption) (clause : Clause) (clauses : List Clause) :
    membersOf option (clause :: clauses)
      = if clause.option = option then clause.members else membersOf option clauses := by
  by_cases h : clause.option = option <;> simp [membersOf, h]

theorem membersOf_eq_nil {option : SystemOption} {clauses : List Clause}
    (h : option ∉ clauses.map (·.option)) : membersOf option clauses = [] := by
  simp [membersOf, find?_eq_none_of_notMem Clause.option h]

/-! ### Reading at the top level -/

theorem assignment_text {clause : Clause} (h : clause.Sound) :
    assignment clause.text = (clause.option.label, clause.value) := by
  rw [assignment, Clause.text, splitOnce_append clause.option.equals_not_mem_label]
  simp only
  rw [clause.option.isTrimmed_label.trim_eq, h.trimmed_value.1.trim_eq]

/-- Clauses joined by `&` are the assignments of the text. -/
theorem assignments_of_joined {clauses : List Clause} {raw : List Char}
    (hraw : Joined (· == '&') (clauses.map Clause.text) raw) (h : ∀ c ∈ clauses, c.Sound) :
    assignments raw = clauses.map fun c => (c.option.label, c.value) := by
  cases clauses with
  | nil =>
      cases hraw
      rfl
  | cons clause rest =>
      have htrim : IsTrimmed raw := trimmed_of_joined hraw h
      have hhead : raw.head? = some '$' := by
        rw [List.map_cons] at hraw
        rw [hraw.head?_eq clause.text_ne_nil, clause.head?_text]
      -- the text starts with a name, so that no question mark is taken off
      have hmark : withoutMark raw = raw := by
        rw [withoutMark, htrim.trim_eq]
        cases raw with
        | nil => rfl
        | cons c raw =>
            obtain rfl : c = '$' := by simpa using hhead
            rfl
      have hpieces : pieces (· == '&') raw = (clause :: rest).map Clause.text := by
        refine pieces_of_joined hraw (by simp) fun text htext => ?_
        obtain ⟨c, hc, rfl⟩ := List.mem_map.1 htext
        exact (h c hc).isWhole_text
      have hfilter : ((clause :: rest).map Clause.text).filter (! ·.isEmpty)
          = (clause :: rest).map Clause.text := by
        rw [List.filter_eq_self]
        intro text htext
        obtain ⟨c, -, rfl⟩ := List.mem_map.1 htext
        simpa using c.text_ne_nil
      rw [assignments, hmark, hpieces, hfilter, List.map_map]
      exact List.map_congr_left fun c hc => assignment_text (h c hc)

theorem firstValue_eq (option : SystemOption) (clauses : List Clause) :
    firstValue option (clauses.map fun c => (c.option.label, c.value))
      = (clauses.find? fun c => c.option = option).map (·.value) := by
  rw [firstValue, List.find?_map, Option.map_map]
  simp [Function.comp_def]

theorem Clause.Sound.pieces_value {clause : Clause} (h : clause.Sound) :
    OData.Query.pieces (· == ',') clause.value = clause.members := by
  refine pieces_of_joined (joined_intercalate ',' clause.members) h.ne_nil fun m hm => ?_
  exact (h.isMember m hm).whole.mono (by simp [isNestedSeparator])

theorem Clause.Sound.readExpand_value {clause : Clause} (h : clause.Sound) :
    readExpand clause.value = readTerms clause.members := by
  rw [readExpand, h.pieces_value]

theorem Clause.Sound.readSelect_value {clause : Clause} (h : clause.Sound) :
    readSelect clause.value = clause.members.map String.ofList := by
  rw [readSelect, h.pieces_value, List.filterMap_map]
  have hmembers := h.isMember
  generalize clause.members = ms at hmembers ⊢
  induction ms with
  | nil => rfl
  | cons m rest ih =>
      have hm := hmembers m List.mem_cons_self
      rw [List.filterMap_cons_some (b := String.ofList m) (by simp [hm.trimmed.trim_eq, hm.ne_nil]),
        ih fun m' hm' => hmembers m' (List.mem_cons_of_mem _ hm'), List.map_cons]

/-- Reading at the top level finds what the clauses set. -/
theorem ofAssignments_of_joined {clauses : List Clause} {raw : List Char}
    (hraw : Joined (· == '&') (clauses.map Clause.text) raw) (h : ∀ c ∈ clauses, c.Sound) :
    Options.ofAssignments (assignments raw) = Options.ofClauses clauses := by
  have hexpand : ((clauses.find? fun c => c.option = .expand).map fun c => readExpand c.value)
      = (clauses.find? fun c => c.option = .expand).map fun c => readTerms c.members := by
    refine Option.map_congr fun c hc => ?_
    exact (h c (List.mem_of_find?_eq_some hc)).readExpand_value
  have hselect : ((clauses.find? fun c => c.option = .select).map fun c => readSelect c.value)
      = (clauses.find? fun c => c.option = .select).map fun c => c.members.map String.ofList := by
    refine Option.map_congr fun c hc => ?_
    exact (h c (List.mem_of_find?_eq_some hc)).readSelect_value
  rw [assignments_of_joined hraw h]
  simp only [Options.ofAssignments, Options.ofClauses, firstValue_eq, Option.map_map,
    Option.bind_map, Function.comp_def, hexpand, hselect, membersOf]
  congr 1
  · cases clauses.find? fun c => c.option = .expand <;> rfl
  · cases clauses.find? fun c => c.option = .select <;> rfl

/-! ### Reading inside parentheses -/

/-- A piece that begins with a name has the value behind the equals sign. -/
theorem namedPiece_append {name : List Char} (hdollar : name.head? = some '$')
    (hequals : '=' ∉ name) (hopen : '(' ∉ name) (value : List Char) :
    namedPiece (name ++ '=' :: value) = some (name, trim value) := by
  refine namedPiece_eq_some_iff.2 ⟨?_, hopen, value, splitOnce_append hequals value, rfl⟩
  rw [List.head?_append, hdollar]
  rfl

namespace NestedState

/-- What one clause adds to what has been read. -/
def take (state : NestedState) (clause : Clause) : NestedState :=
  match clause.option with
  | .expand => { state with current := some .expand, terms := state.terms ++ clause.members }
  | .select => { state with current := some .select, select := state.select ++ clause.members }
  | .skip => { state with current := none, skip := some (readCount clause.value) }
  | .top => { state with current := none, top := some (readLimit clause.value) }

/-- The option is not a count that has been read before. -/
def IsFree (state : NestedState) : SystemOption → Prop
  | .skip => state.skip = none
  | .top => state.top = none
  | _ => True

/-- A piece that names an option belongs to it, unless it is a count that has been read before. -/
theorem attribute?_append (state : NestedState) {option : SystemOption} {name : List Char}
    (hname : SystemOption.ofName? name = some option) (hdollar : name.head? = some '$')
    (hequals : '=' ∉ name) (hopen : '(' ∉ name) (hfree : state.IsFree option)
    (value : List Char) : state.attribute? (name ++ '=' :: value) = (some option, trim value) := by
  rw [attribute?, namedPiece_append hdollar hequals hopen]
  simp only [hname]
  cases option <;> simp_all [IsFree]

/-- A count that has been read before is not read again. -/
theorem attribute?_append_of_not_isFree (state : NestedState) {option : SystemOption}
    {name : List Char} (hname : SystemOption.ofName? name = some option)
    (hdollar : name.head? = some '$') (hequals : '=' ∉ name) (hopen : '(' ∉ name)
    (htaken : ¬ state.IsFree option) (value : List Char) :
    state.attribute? (name ++ '=' :: value) = (none, trim value) := by
  rw [attribute?, namedPiece_append hdollar hequals hopen]
  simp only [hname]
  cases option <;> simp_all [IsFree, Option.isSome_iff_ne_none]

theorem attribute?_named (state : NestedState) {option : SystemOption}
    (hfree : state.IsFree option) {m : List Char} (hm : IsMember m) :
    state.attribute? (option.label ++ '=' :: m) = (some option, m) := by
  have hdollar : option.label.head? = some '$' := by cases option <;> rfl
  have hopen : '(' ∉ option.label := by cases option <;> decide
  rw [state.attribute?_append option.ofName?_label hdollar option.equals_not_mem_label hopen hfree,
    hm.trimmed.trim_eq]

/-- A piece that does not begin with a dollar sign belongs to the current option. -/
theorem attribute?_bare (state : NestedState) {m : List Char} (hm : m.head? ≠ some '$') :
    state.attribute? m = (state.current, m) := by
  have hnamed : namedPiece m = none := by
    cases m with
    | nil => rfl
    | cons c m =>
        rw [namedPiece]
        intro rest hrest
        exact hm (congrArg some (List.cons.inj hrest).1)
  rw [attribute?, hnamed]

/-- Pieces that do not begin with a dollar sign continue a list. -/
theorem foldl_step_bare {option : SystemOption} (hlist : option = .expand ∨ option = .select)
    {ms : List (List Char)} (hms : ∀ m ∈ ms, m.head? ≠ some '$') (state : NestedState)
    (hcurrent : state.current = some option) :
    ms.foldl step state = state.take ⟨option, option.kept ms⟩ := by
  -- the list stays the current option from one piece to the next
  induction ms generalizing state with
  | nil =>
      cases state
      rcases hlist with rfl | rfl <;> simp_all [take, SystemOption.kept]
  | cons m ms ih =>
      have hstep : state.step m = state.take ⟨option, option.kept [m]⟩ := by
        rw [step, state.attribute?_bare (hms m List.mem_cons_self), hcurrent]
        rcases hlist with rfl | rfl
        · rfl
        · cases m <;> simp [take, SystemOption.kept]
      have hnext : (state.take ⟨option, option.kept [m]⟩).current = some option := by
        rcases hlist with rfl | rfl <;> rfl
      rw [List.foldl_cons, hstep, ih (fun m' hm' => hms m' (List.mem_cons_of_mem _ hm')) _ hnext,
        option.kept_cons m ms]
      rcases hlist with rfl | rfl <;> simp [take]

/-- The pieces of a clause are read as that clause. -/
theorem foldl_step_pieces {clause : Clause} (h : clause.Sound) (state : NestedState)
    (hfree : state.IsFree clause.option) : clause.pieces.foldl step state = state.take clause := by
  obtain ⟨option, members⟩ := clause
  cases members with
  | nil => exact absurd rfl h.ne_nil
  | cons m rest =>
      have hm := h.isMember m List.mem_cons_self
      have hrest : ∀ m' ∈ rest, IsMember m' := fun m' hm' =>
        h.isMember m' (List.mem_cons_of_mem _ hm')
      have hattribute := state.attribute?_named hfree hm
      simp only [Clause.pieces, List.foldl_cons]
      -- the first piece names the option, and the others can only continue a list
      rw [step, hattribute]
      cases option with
      | expand =>
          simp only [take]
          rw [foldl_step_bare (.inl rfl) (fun m' hm' => (hrest m' hm').unnamed) _ rfl]
          simp [take, SystemOption.kept]
      | select =>
          simp only [take]
          rw [if_neg (by simpa using hm.ne_nil),
            foldl_step_bare (.inr rfl) (fun m' hm' => (hrest m' hm').unnamed) _ rfl,
            SystemOption.kept_eq_self fun m' hm' => (hrest m' hm').ne_nil]
          simp [take]
      | skip =>
          obtain ⟨hvalue, rfl⟩ := List.cons.inj (h.count (.inl rfl))
          simp only [take, List.foldl_nil]
          rw [← hvalue]
      | top =>
          obtain ⟨hvalue, rfl⟩ := List.cons.inj (h.count (.inr rfl))
          simp only [take, List.foldl_nil]
          rw [← hvalue]

theorem IsFree.take {state : NestedState} {clause : Clause} {option : SystemOption}
    (h : state.IsFree option) (hne : clause.option ≠ option) : (state.take clause).IsFree option := by
  rw [NestedState.take]
  cases option <;> cases hc : clause.option <;> simp_all [IsFree]

/-- The pieces of several clauses are read as those clauses, one after the other. -/
theorem foldl_step_flatMap {clauses : List Clause} (h : ∀ c ∈ clauses, c.Sound)
    (hdistinct : (clauses.map (·.option)).Nodup) (state : NestedState)
    (hfree : ∀ c ∈ clauses, state.IsFree c.option) :
    (clauses.flatMap Clause.pieces).foldl step state = clauses.foldl take state := by
  induction clauses generalizing state with
  | nil => rfl
  | cons c clauses ih =>
      rw [List.map_cons, List.nodup_cons] at hdistinct
      rw [List.flatMap_cons, List.foldl_append, List.foldl_cons,
        foldl_step_pieces (h c List.mem_cons_self) state (hfree c List.mem_cons_self)]
      -- no later clause has the option that was just taken, so that its own is still free
      refine ih (fun c' hc' => h c' (List.mem_cons_of_mem _ hc')) hdistinct.2 _ fun c' hc' => ?_
      refine (hfree c' (List.mem_cons_of_mem _ hc')).take fun heq => ?_
      exact hdistinct.1 (heq ▸ List.mem_map_of_mem hc')

/-- After some clauses have been read, everything that they set is there. -/
theorem foldl_take {clauses : List Clause} (hdistinct : (clauses.map (·.option)).Nodup)
    (state : NestedState) :
    (clauses.foldl take state).terms = state.terms ++ membersOf .expand clauses ∧
      (clauses.foldl take state).select = state.select ++ membersOf .select clauses ∧
      (clauses.foldl take state).skip = ((clauses.find? fun c => c.option = .skip).map
        fun c => readCount c.value).or state.skip ∧
      (clauses.foldl take state).top = ((clauses.find? fun c => c.option = .top).map
        fun c => readLimit c.value).or state.top := by
  induction clauses generalizing state with
  | nil => simp [membersOf]
  | cons c clauses ih =>
      rw [List.map_cons, List.nodup_cons] at hdistinct
      -- the option of the first clause is not set again by the others
      obtain ⟨hterms, hselect, hskip, htop⟩ := ih hdistinct.2 (state.take c)
      have hmembers := membersOf_eq_nil hdistinct.1
      have hfind := find?_eq_none_of_notMem Clause.option hdistinct.1
      rw [List.foldl_cons, hterms, hselect, hskip, htop]
      simp only [membersOf_cons, List.find?_cons, take]
      cases hc : c.option <;> rw [hc] at hmembers hfind <;> simp [hmembers, hfind]

/-- What is read of clauses, each of another option, is what they set. -/
theorem options_foldl_take {clauses : List Clause} (hdistinct : (clauses.map (·.option)).Nodup) :
    (clauses.foldl take {}).options = Options.ofClauses clauses := by
  obtain ⟨hterms, hselect, hskip, htop⟩ := foldl_take hdistinct {}
  rw [options, hterms, hselect, hskip, htop, Options.ofClauses]
  simp only [List.nil_append, Option.or_none, Option.bind_map, Function.comp_def, id]

end NestedState

/-- **Reading inside parentheses finds what the clauses set**, whatever separators join them. -/
theorem options_of_joined {clauses : List Clause} {content : List Char}
    (hcontent : Joined isNestedSeparator (clauses.map Clause.text) content)
    (h : ∀ c ∈ clauses, c.Sound) (hdistinct : (clauses.map (·.option)).Nodup) :
    ((nestedPieces content).foldl NestedState.step {}).options = Options.ofClauses clauses := by
  cases clauses with
  | nil =>
      -- the empty text has one empty piece, which is a term without a name
      cases hcontent
      rfl
  | cons clause rest =>
      have hjoin : Joined isNestedSeparator ((clause :: rest).flatMap Clause.pieces) content := by
        refine hcontent.flatMap fun c hc => ⟨?_, Clause.pieces_ne_nil (h c hc).ne_nil⟩
        exact (Clause.joined_pieces (h c hc).ne_nil).mono (by simp [isNestedSeparator])
      have hpart : ∀ p ∈ (clause :: rest).flatMap Clause.pieces,
          IsWhole isNestedSeparator p ∧ IsTrimmed p := by
        intro p hp
        obtain ⟨c, hc, hp⟩ := List.mem_flatMap.1 hp
        exact (h c hc).isWhole_of_mem_pieces hp
      have hne : (clause :: rest).flatMap Clause.pieces ≠ [] := by
        simp [Clause.pieces_ne_nil (h clause List.mem_cons_self).ne_nil]
      have hpieces : nestedPieces content = (clause :: rest).flatMap Clause.pieces := by
        rw [nestedPieces, pieces_of_joined hjoin hne fun p hp => (hpart p hp).1]
        exact (List.map_congr_left fun p hp => (hpart p hp).2.trim_eq).trans (List.map_id _)
      have hfree : ∀ c ∈ clause :: rest, ({} : NestedState).IsFree c.option := by
        intro c _
        cases c.option <;> trivial
      rw [hpieces, NestedState.foldl_step_flatMap h hdistinct {} hfree,
        NestedState.options_foldl_take hdistinct]

end OData.Query
