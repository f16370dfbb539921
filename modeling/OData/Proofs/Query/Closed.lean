/-
Queries whose groups are closed.

Strict reading looks at parentheses once, in the values of `$expand` and `$select` at the top level.
Whatever is read further inside is cut out of such a value: at separators of depth zero, at the
first equals sign behind a name, at blanks, and at the parentheses of a group.  None of these cuts
parts a parenthesis from its partner.  So in a query that strict reading accepts no group is closed
by the end of the text, at whatever depth it stands, and no parenthesis is left in the name of a
relationship.

Main definitions:

* `Query.ClosesGroup` — the group of a term ends at a parenthesis of its own;
* `Query.ReadsTerm` — the terms that are read on the way through a query.

Main results:

* `Query.Balanced.trimmed`, `Query.Balanced.of_mem_pieces`, `Query.Balanced.closes_group` — what is
  cut out of a balanced text is balanced;
* `Query.Balanced.of_mem_nestedTerms` — **an item with a balanced text has balanced terms inside**;
* `Query.balanced_of_readsTerm` — so has an accepted query, at every depth;
* `Query.parseStrict_closes` — **groups are closed throughout an accepted query**.
-/

import OData.Proofs.Query.Cut
import OData.Proofs.Query.Level
import OData.Proofs.Query.Numeral

set_option relaxedAutoImplicit false
set_option autoImplicit false

namespace OData.Query

open Text

/-! ### Cutting a balanced text -/

namespace Balanced

/-- A front without opening parentheses closes nothing either, and leaves a balanced text behind. -/
theorem of_append_of_notMem {a b : List Char} (h : Balanced 0 (a ++ b)) (ha : '(' ∉ a) :
    (∀ c ∈ a, ¬ IsParenthesis c) ∧ Balanced 0 b := by
  induction a with
  | nil => exact ⟨by simp, h⟩
  | cons c a ih =>
      rw [List.mem_cons, not_or] at ha
      -- there is nothing to close at depth zero
      cases h with
      | opening => exact absurd rfl ha.1
      | plain hc hrest =>
          obtain ⟨hplain, hb⟩ := ih hrest ha.2
          exact ⟨List.forall_mem_cons.2 ⟨hc, hplain⟩, hb⟩

theorem not_isParenthesis {cs : List Char} (h : Balanced 0 cs) (hopen : '(' ∉ cs) :
    ∀ c ∈ cs, ¬ IsParenthesis c := by
  rw [← List.append_nil cs] at h
  exact (h.of_append_of_notMem hopen).1

theorem of_append_of_forall {k : Nat} {a b : List Char} (h : Balanced k (a ++ b))
    (hb : ∀ c ∈ b, ¬ IsParenthesis c) : Balanced k a := by
  induction a generalizing k with
  | nil =>
      have hdepth : depthFrom k b = 0 := h.depthFrom_eq 0
      have hsame : depthFrom (0 + k) b = k := (Balanced.of_forall hb).depthFrom_eq k
      rw [Nat.zero_add, hdepth] at hsame
      exact hsame ▸ .nil
  | cons c a ih =>
      cases h with
      | opening hrest => exact .opening (ih hrest)
      | closing hrest => exact .closing (ih hrest)
      | plain hc hrest => exact .plain hc (ih hrest)

theorem trimmed {cs : List Char} (h : Balanced 0 cs) : Balanced 0 (trim cs) := by
  obtain ⟨a, b, ha, hb, heq⟩ := exists_eq_append_trim_append cs
  have hopen : '(' ∉ a := fun hmem => not_isParenthesis_of_isBlank (ha _ hmem) (.inl rfl)
  rw [heq] at h
  have hbehind := (h.of_append_of_notMem hopen).2
  exact hbehind.of_append_of_forall fun c hc => not_isParenthesis_of_isBlank (hb c hc)

/-- The first piece of a text closes what the text closes, and the others are balanced. -/
theorem exists_piecesFrom_eq {isSeparator : Char → Bool}
    (hparen : ∀ c, isSeparator c = true → ¬ IsParenthesis c) {k : Nat} {cs : List Char}
    (h : Balanced k cs) :
    ∃ first rest, piecesFrom isSeparator k cs = first :: rest ∧ Balanced k first ∧
      ∀ piece ∈ rest, Balanced 0 piece := by
  induction h with
  | nil => exact ⟨[], [], rfl, .nil, by simp⟩
  | @opening k cs _ ih =>
      obtain ⟨first, rest, hpieces, hfirst, hrest⟩ := ih
      have hopen : isSeparator '(' = false := by
        cases hs : isSeparator '(' with
        | false => rfl
        | true => exact absurd (.inl rfl) (hparen '(' hs)
      refine ⟨'(' :: first, rest, ?_, .opening hfirst, hrest⟩
      have hstep : depthStep k '(' = k + 1 := rfl
      rw [piecesFrom, if_neg (by simp [hopen]), hstep, hpieces, consFirst_cons]
  | @closing k cs _ ih =>
      obtain ⟨first, rest, hpieces, hfirst, hrest⟩ := ih
      refine ⟨')' :: first, rest, ?_, .closing hfirst, hrest⟩
      have hstep : depthStep (k + 1) ')' = k := rfl
      rw [piecesFrom, if_neg (by simp), hstep, hpieces, consFirst_cons]
  | @plain k c cs hc _ ih =>
      obtain ⟨first, rest, hpieces, hfirst, hrest⟩ := ih
      rw [piecesFrom]
      split
      · next hcut =>
          -- a separator of depth zero ends the first piece
          obtain ⟨hk, -⟩ := Bool.and_eq_true_iff.1 hcut
          obtain rfl : k = 0 := of_decide_eq_true hk
          exact ⟨[], first :: rest, by rw [hpieces], .nil, List.forall_mem_cons.2 ⟨hfirst, hrest⟩⟩
      · exact ⟨c :: first, rest, by rw [depthStep_eq hc, hpieces, consFirst_cons],
          .plain hc hfirst, hrest⟩

theorem of_mem_pieces {isSeparator : Char → Bool}
    (hparen : ∀ c, isSeparator c = true → ¬ IsParenthesis c) {cs piece : List Char}
    (h : Balanced 0 cs) (hpiece : piece ∈ pieces isSeparator cs) : Balanced 0 piece := by
  obtain ⟨first, rest, hpieces, hfirst, hrest⟩ := h.exists_piecesFrom_eq hparen
  rw [pieces, hpieces] at hpiece
  rcases List.mem_cons.1 hpiece with rfl | hpiece
  · exact hfirst
  · exact hrest piece hpiece

/-- A group that the text closes ends at its own parenthesis, and what stands in it is balanced. -/
theorem closes_group {d : Nat} {cs : List Char} (h : Balanced (d + 1) cs) :
    Balanced d (groupContentFrom d cs) ∧ ∃ rest, cs = groupContentFrom d cs ++ ')' :: rest := by
  generalize hk : d + 1 = k at h
  induction h generalizing d with
  | nil => cases hk
  | @opening k cs _ ih =>
      obtain ⟨hcontent, rest, heq⟩ := ih (congrArg (· + 1) hk)
      exact ⟨.opening hcontent, rest, congrArg ('(' :: ·) heq⟩
  | @closing k cs _ ih =>
      obtain rfl : d = k := Nat.succ.inj hk
      cases d with
      | zero => exact ⟨.nil, cs, rfl⟩
      | succ d =>
          obtain ⟨hcontent, rest, heq⟩ := ih rfl
          exact ⟨.closing hcontent, rest, congrArg (')' :: ·) heq⟩
  | @plain k c cs hc _ ih =>
      obtain ⟨hcontent, rest, heq⟩ := ih hk
      have hplain : groupContentFrom d (c :: cs) = c :: groupContentFrom d cs := by
        simp only [IsParenthesis, not_or] at hc
        simp [groupContentFrom, hc]
      rw [hplain]
      exact ⟨.plain hc hcontent, rest, congrArg (c :: ·) heq⟩

/-- Before the first parenthesis of a balanced text there is none, and behind it its group. -/
theorem of_splitOnce {cs before after : List Char} (h : Balanced 0 cs)
    (hsplit : splitOnce '(' cs = some (before, after)) :
    (∀ c ∈ before, ¬ IsParenthesis c) ∧ Balanced 1 after := by
  rw [eq_append_of_splitOnce hsplit] at h
  obtain ⟨hbefore, hafter⟩ := h.of_append_of_notMem (notMem_of_splitOnce hsplit)
  cases hafter with
  | opening hafter => exact ⟨hbefore, hafter⟩
  | plain hc => exact absurd (.inl rfl) hc

end Balanced

/-! ### Terms -/

/-- The group of a term, if it has one, ends at a parenthesis of its own and not at the end of the
text. -/
def ClosesGroup (term : List Char) : Prop :=
  ∀ parts ∈ splitOnce '(' (trim term), groupContent parts.2 ++ [')'] <+: parts.2

instance (term : List Char) : Decidable (ClosesGroup term) :=
  inferInstanceAs (Decidable (∀ parts ∈ splitOnce '(' (trim term), _))

namespace Balanced

theorem closesGroup {term : List Char} (h : Balanced 0 term) : ClosesGroup term := by
  intro parts hsplit
  obtain ⟨-, rest, heq⟩ := (h.trimmed.of_splitOnce hsplit).2.closes_group
  refine ⟨rest, ?_⟩
  rw [List.append_assoc]
  exact heq.symm

/-- Without a parenthesis of its own a group ends with the text. -/
example : ¬ ClosesGroup "Author(Books".toList := by decide

/-- A balanced term names a relationship without parentheses and has a balanced text in them. -/
theorem of_readTerm {term : List Char} {item : ExpandItem} (h : Balanced 0 term)
    (hread : readTerm term = some item) :
    Balanced 0 item.subQuery.toList ∧ ∀ c ∈ item.name.toList, ¬ IsParenthesis c := by
  have hparts : ∀ parts, (splitOnce '(' (trim term)).getD (trim term, []) = parts →
      Balanced 0 (groupContent parts.2) ∧ ∀ c ∈ parts.1, ¬ IsParenthesis c := by
    rintro parts rfl
    cases hsplit : splitOnce '(' (trim term) with
    | none =>
        exact ⟨.nil, h.trimmed.not_isParenthesis (notMem_of_splitOnce_eq_none hsplit)⟩
    | some parts =>
        obtain ⟨hbefore, hafter⟩ := h.trimmed.of_splitOnce hsplit
        exact ⟨hafter.closes_group.1, hbefore⟩
  obtain ⟨hcontent, hname⟩ := hparts _ rfl
  unfold readTerm at hread
  simp only at hread
  split at hread
  · cases hread
  · obtain rfl := Option.some.inj hread
    rw [String.toList_ofList, String.toList_ofList]
    exact ⟨hcontent.trimmed, fun c hc => hname c ((sublist_trim _).subset hc)⟩

/-- The value of a named piece is balanced with the piece. -/
theorem of_namedPiece {piece name value : List Char} (h : Balanced 0 piece)
    (hnamed : namedPiece piece = some (name, value)) : Balanced 0 value := by
  obtain ⟨-, hopen, after, hsplit, rfl⟩ := namedPiece_eq_some_iff.1 hnamed
  rw [eq_append_of_splitOnce hsplit] at h
  have hbehind := (h.of_append_of_notMem hopen).2
  cases hbehind with
  | plain _ hafter => exact hafter.trimmed

end Balanced

/-- The terms of `$expand` in a nested text. -/
def nestedTerms (content : String) : List (List Char) :=
  ((nestedPieces content.toList).foldl NestedState.step {}).terms

theorem expand_parseNested (content : String) :
    (Options.parseNested content).expand = readTerms (nestedTerms content) := rfl

/-- **The terms of a balanced nested text are balanced.** -/
theorem Balanced.of_mem_nestedTerms {content : String} {term : List Char}
    (h : Balanced 0 content.toList) (hterm : term ∈ nestedTerms content) : Balanced 0 term := by
  have hseparator : ∀ c, isNestedSeparator c = true → ¬ IsParenthesis c := by
    simp +contextual [isNestedSeparator, IsParenthesis, or_imp]
  rcases NestedState.mem_terms_foldl _ _ hterm with hterm | ⟨piece, hpiece, before, rfl⟩
  · cases hterm
  · obtain ⟨text, htext, rfl⟩ := List.mem_map.1 hpiece
    have hpiece := (h.of_mem_pieces hseparator htext).trimmed
    rcases before.attribute?_snd (trim text) with hself | ⟨name, hnamed⟩
    · rw [hself]
      exact hpiece
    · exact hpiece.of_namedPiece hnamed

/-! ### Terms at every depth -/

/-- A term is read on the way through a query: it stands in the value of `$expand`, or in the
parentheses of another such term. -/
inductive ReadsTerm (raw : String) : List Char → Prop
  | top {value term : List Char} : firstValue .expand (assignments raw.toList) = some value →
      term ∈ pieces (· == ',') value → ReadsTerm raw term
  | inside {outer term : List Char} {item : ExpandItem} : ReadsTerm raw outer →
      readTerm outer = some item → term ∈ nestedTerms item.subQuery → ReadsTerm raw term

/-- The items of a query come from terms that are read, at every depth. -/
theorem exists_readsTerm {raw : String} {item : ExpandItem}
    (h : (Options.parse raw).HasItem item) :
    ∃ term, ReadsTerm raw term ∧ readTerm term = some item := by
  have hexpand : ∀ item ∈ (Options.parse raw).expand,
      ∃ term, ReadsTerm raw term ∧ readTerm term = some item := by
    intro item hitem
    rw [Options.parse, Options.ofAssignments] at hitem
    cases hvalue : firstValue .expand (assignments raw.toList) with
    | none => simp [hvalue] at hitem
    | some value =>
        rw [hvalue] at hitem
        obtain ⟨term, hmem, hread⟩ := exists_readTerm_of_mem_readTerms hitem
        exact ⟨term, .top hvalue hmem, hread⟩
  -- the items inside an item come from the terms in its parentheses
  generalize Options.parse raw = options at h hexpand
  induction h with
  | here hitem => exact hexpand _ hitem
  | inside houter _ ih =>
      obtain ⟨outerTerm, hreads, houterRead⟩ := hexpand _ houter
      refine ih fun item hitem => ?_
      rw [ExpandItem.nested, expand_parseNested] at hitem
      obtain ⟨term, hmem, hread⟩ := exists_readTerm_of_mem_readTerms hitem
      exact ⟨term, .inside hreads houterRead hmem, hread⟩

/-- **The terms of an accepted query are balanced, at every depth.** -/
theorem balanced_of_readsTerm {raw : String} {options : Options}
    (h : Options.parseStrict raw = .ok options) {term : List Char} (hterm : ReadsTerm raw term) :
    Balanced 0 term := by
  induction hterm with
  | @top value term hvalue hmem =>
      obtain ⟨pair, hpair, rfl⟩ := Option.map_eq_some_iff.1 hvalue
      have hname : SystemOption.ofName? pair.1 = some .expand := by
        simpa using List.find?_some hpair
      have hsound := (parseStrict_eq_ok_iff.1 h).2 pair (List.mem_of_find?_eq_some hpair)
      have hbalanced : isBalanced pair.2 = true := by simpa [isMalformed, hname] using hsound
      exact (isBalancedFrom_iff.1 hbalanced).of_mem_pieces (by simp [IsParenthesis]) hmem
  | inside _ hread hmem ih => exact (ih.of_readTerm hread).1.of_mem_nestedTerms hmem

/-- **Groups are closed throughout an accepted query.**  At every depth the text in the parentheses
of an item is balanced, the name of its relationship has no parenthesis, and every term that is read
has its group closed by a parenthesis of its own. -/
theorem parseStrict_closes {raw : String} {options : Options}
    (h : Options.parseStrict raw = .ok options) :
    (∀ item, options.HasItem item → isBalanced item.subQuery.toList = true ∧
      '(' ∉ item.name.toList ∧ ')' ∉ item.name.toList) ∧
    ∀ term, ReadsTerm raw term → ClosesGroup term := by
  refine ⟨fun item hitem => ?_, fun term hterm => (balanced_of_readsTerm h hterm).closesGroup⟩
  obtain ⟨rfl, -⟩ := parseStrict_eq_ok_iff.1 h
  obtain ⟨term, hterm, hread⟩ := exists_readsTerm hitem
  obtain ⟨hcontent, hname⟩ := (balanced_of_readsTerm h hterm).of_readTerm hread
  exact ⟨isBalancedFrom_iff.2 hcontent, fun hmem => hname _ hmem (.inl rfl),
    fun hmem => hname _ hmem (.inr rfl)⟩

/-- Two levels of groups, with blanks and separators of several kinds inside. -/
def nestedQuery : String := "$Expand=Author( $top=2;$expand = Books(a(b)) ),Shop"

theorem parseStrict_closes_nested :
    Options.parseStrict nestedQuery = .ok (.parse nestedQuery) ∧
      (Options.parse nestedQuery).HasItem ⟨"Books", "a(b)"⟩ ∧
      (isBalanced "a(b)".toList = true ∧ '(' ∉ "Books".toList ∧ ')' ∉ "Books".toList) ∧
      ReadsTerm nestedQuery "Books(a(b))".toList ∧ ClosesGroup "Books(a(b))".toList := by
  have h : Options.parseStrict nestedQuery = .ok (.parse nestedQuery) := rfl
  have hread : readTerm "Author( $top=2;$expand = Books(a(b)) )".toList
      = some ⟨"Author", "$top=2;$expand = Books(a(b))"⟩ := by decide
  have houter : ⟨"Author", "$top=2;$expand = Books(a(b))"⟩ ∈ (Options.parse nestedQuery).expand := by
    decide
  have hitem : (Options.parse nestedQuery).HasItem ⟨"Books", "a(b)"⟩ :=
    .inside houter (.here (by decide))
  have hterm : ReadsTerm nestedQuery "Books(a(b))".toList :=
    .inside (.top rfl (by decide)) hread (by decide)
  obtain ⟨hitems, hterms⟩ := parseStrict_closes h
  exact ⟨h, hitem, hitems _ hitem, hterm, hterms _ hterm⟩

end OData.Query
