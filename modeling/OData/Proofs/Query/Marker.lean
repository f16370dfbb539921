/-
Markers in front of nested texts.

Who resolves a relationship is given the text in the parentheses of its term.  That text may begin
with the name of the list that its first piece belongs to, and such a marker is taken off on the
way: of `Category($expand=Products)` the text `Products` is passed on.  Whoever reads the text as a
nested query knows the name of a list in letters of either case and with blanks behind it, while a
marker is only taken off if it is written in lower case and without blanks.  So the two agree on the
marker exactly if it is written like that.

Main definitions:

* `Query.listMarker?` — the marker that a nested text begins with, as the reader of nested texts
  sees it;
* `Query.withoutMarker` — a nested text without leading blanks and without that marker.

Main results:

* `Query.prefix_of_listMarker?`, `Query.listMarker?_of_prefix` — a text begins with its marker, and
  one that begins with a marker in lower case has it;
* `Query.toList_nestedOption` — what is passed on;
* `Query.nestedOption_eq_withoutMarker_iff` — **what is passed on is the text without its marker
  exactly if the marker is `$expand=` or `$select=` to the letter**.
-/

import OData.Proofs.Query.Clause
import OData.Proofs.Query.Cut

set_option relaxedAutoImplicit false
set_option autoImplicit false

namespace OData.Query

open Text

/-! ### The marker of a text -/

/-- The marker that a nested text begins with: the name of its first piece as it is written, and the
equals sign, if the piece has a name and belongs to one of the two lists. -/
def listMarker? (content : List Char) : Option (List Char) :=
  (nestedPieces content).head?.bind fun piece =>
    match namedPiece piece, (({} : NestedState).attribute? piece).1 with
    | some (name, _), some .expand => some (name ++ ['='])
    | some (name, _), some .select => some (name ++ ['='])
    | _, _ => none

/-- A nested text without leading blanks and without the marker that it begins with. -/
def withoutMarker (content : List Char) : List Char :=
  (trimStart content).drop ((listMarker? content).getD []).length

/-- A marker is the name of the first piece with its equals sign. -/
theorem exists_namedPiece_of_listMarker? {content marker : List Char}
    (h : listMarker? content = some marker) :
    ∃ piece rest name value, nestedPieces content = piece :: rest ∧
      namedPiece piece = some (name, value) ∧ marker = name ++ ['='] := by
  obtain ⟨piece, hpiece, h⟩ := Option.bind_eq_some_iff.1 h
  obtain ⟨rest, hpieces⟩ := List.head?_eq_some_iff.1 hpiece
  split at h
  · next name value hnamed _ =>
      exact ⟨piece, rest, name, value, hpieces, hnamed, (Option.some.inj h).symm⟩
  · next name value hnamed _ =>
      exact ⟨piece, rest, name, value, hpieces, hnamed, (Option.some.inj h).symm⟩
  · cases h

/-- A text begins with its marker, but for blanks in front. -/
theorem prefix_of_listMarker? {content marker : List Char}
    (h : listMarker? content = some marker) : marker <+: trimStart content := by
  obtain ⟨piece, rest, name, value, hpieces, hnamed, rfl⟩ := exists_namedPiece_of_listMarker? h
  obtain ⟨hdollar, -, after, hsplit, -⟩ := namedPiece_eq_some_iff.1 hnamed
  obtain ⟨first, more, hcut, hfirst, -⟩ := List.map_eq_cons_iff.1 hpieces
  -- the first piece stands between blanks at the front of the text
  have hjoin := joined_pieces isNestedSeparator content
  rw [hcut] at hjoin
  obtain ⟨behind, hcontent, -⟩ := hjoin.exists_eq_append
  obtain ⟨a, b, ha, -, hblanks⟩ := exists_eq_append_trim_append first
  rw [hfirst] at hblanks
  have hpiece : piece = name ++ '=' :: after := eq_append_of_splitOnce hsplit
  have hstart : trimStart content = piece ++ (b ++ behind) := by
    rw [hcontent, hblanks, List.append_assoc, ha.trimStart_append, List.append_assoc]
    obtain ⟨rest, rfl⟩ := List.head?_eq_some_iff.1 hdollar
    rfl
  exact ⟨after ++ (b ++ behind), by simp [hstart, hpiece]⟩

/-- The marker of an option, in lower case. -/
def SystemOption.marker (option : SystemOption) : List Char := option.label ++ ['=']

theorem SystemOption.isBlank_marker (option : SystemOption) :
    ∀ c ∈ option.marker, isBlank c = false := by
  have hall : (option.marker.all (! isBlank ·)) = true := by cases option <;> decide
  intro c hc
  simpa using List.all_eq_true.1 hall c hc

/-- A list is named by the marker in front of a piece. -/
theorem listMarker?_eq_of_head {content value : List Char} {option : SystemOption}
    (hlist : option = .expand ∨ option = .select)
    (h : (nestedPieces content).head? = some (option.marker ++ value)) :
    listMarker? content = some option.marker := by
  have hdollar : option.label.head? = some '$' := by cases option <;> rfl
  have hopen : '(' ∉ option.label := by cases option <;> decide
  have hpiece : option.marker ++ value = option.label ++ '=' :: value := by
    simp [SystemOption.marker]
  have hnamed := namedPiece_append hdollar option.equals_not_mem_label hopen value
  have hattribute := NestedState.attribute?_append {} option.ofName?_label hdollar
    option.equals_not_mem_label hopen (by rcases hlist with rfl | rfl <;> trivial) value
  rw [listMarker?, h, Option.bind_some, hpiece, hnamed, hattribute]
  rcases hlist with rfl | rfl <;> rfl

/-- A text that begins with a marker in lower case has it. -/
theorem listMarker?_of_prefix {content : List Char} {option : SystemOption}
    (hlist : option = .expand ∨ option = .select) (h : option.marker <+: trimStart content) :
    listMarker? content = some option.marker := by
  obtain ⟨behind, hbehind⟩ := h
  obtain ⟨a, ha, hcontent⟩ := exists_eq_append_trimStart content
  obtain ⟨first, rest, hcut⟩ := exists_piecesFrom_eq_cons isNestedSeparator 0 behind
  have hblank : ∀ c, isNestedSeparator c = true → isBlank c = false := by
    intro c hc
    simp only [isNestedSeparator, Bool.or_eq_true, beq_iff_eq] at hc
    rcases hc with (rfl | rfl) | rfl <;> rfl
  have hfront : IsWhole isNestedSeparator (a ++ option.marker) :=
    (isWhole_of_allBlank hblank ha).append option.isWhole_label_append
  -- the marker stays in front of the first piece
  have hpieces : pieces isNestedSeparator content = (a ++ option.marker ++ first) :: rest := by
    rw [hcontent, ← hbehind, ← List.append_assoc, pieces_append_left hfront, pieces, hcut,
      foldr_consFirst_cons]
  have htrim : trim (a ++ option.marker ++ first) = option.marker ++ trimEnd first := by
    have hstart : trimStart (option.marker ++ first) = option.marker ++ first := by
      cases option <;> rfl
    rw [List.append_assoc, ha.trim_append_left, trim, hstart,
      trimEnd_append_of_forall option.isBlank_marker]
  exact listMarker?_eq_of_head hlist (by rw [nestedPieces, hpieces, List.map_cons, htrim]; rfl)

/-! ### What is passed on -/

/-- A marker in lower case is taken off; a text without one is passed on whole. -/
theorem toList_nestedOption (item : ExpandItem) :
    (∃ option : SystemOption, (option = .expand ∨ option = .select) ∧
      option.marker <+: trimStart item.subQuery.toList ∧
      item.nestedOption.toList
        = (trimStart item.subQuery.toList).drop option.marker.length) ∨
    ((∀ option : SystemOption, option = .expand ∨ option = .select →
      ¬ option.marker <+: trimStart item.subQuery.toList) ∧
      item.nestedOption.toList = trimStart item.subQuery.toList) := by
  have hexpand : "$expand=".toList = SystemOption.expand.marker := rfl
  have hselect : "$select=".toList = SystemOption.select.marker := rfl
  simp only [ExpandItem.nestedOption, String.toList_ofList, hexpand, hselect,
    List.isPrefixOf_iff_prefix]
  split
  · next h => exact .inl ⟨.expand, .inl rfl, h, rfl⟩
  · next hnot =>
      split
      · next h => exact .inl ⟨.select, .inr rfl, h, rfl⟩
      · next hnot' =>
          refine .inr ⟨?_, rfl⟩
          rintro option (rfl | rfl)
          · exact hnot
          · exact hnot'

/-- **What is passed on is the text without its marker exactly if the marker is `$expand=` or
`$select=` to the letter**, or if there is none. -/
theorem nestedOption_eq_withoutMarker_iff (item : ExpandItem) :
    item.nestedOption.toList = withoutMarker item.subQuery.toList ↔
      ∀ marker ∈ listMarker? item.subQuery.toList,
        marker = "$expand=".toList ∨ marker = "$select=".toList := by
  rcases toList_nestedOption item with ⟨option, hlist, hprefix, hoption⟩ | ⟨hnone, hoption⟩
  · have hmarker := listMarker?_of_prefix hlist hprefix
    rw [withoutMarker, hmarker, hoption]
    refine iff_of_true rfl ?_
    rintro marker hmem
    obtain rfl := Option.some.inj hmem
    rcases hlist with rfl | rfl
    · exact .inl rfl
    · exact .inr rfl
  · rw [withoutMarker, hoption]
    cases hmarker : listMarker? item.subQuery.toList with
    | none => exact iff_of_true rfl (by simp)
    | some marker =>
        have hprefix := prefix_of_listMarker? hmarker
        obtain ⟨-, -, name, -, -, -, rfl⟩ := exists_namedPiece_of_listMarker? hmarker
        refine iff_of_false (fun heq => ?_) fun hplain => ?_
        · -- the text is longer with its marker
          have hlength := congrArg List.length heq
          have hle := hprefix.length_le
          simp only [Option.getD_some, List.length_drop, List.length_append,
            List.length_singleton] at hlength hle
          omega
        · rcases hplain _ rfl with heq | heq
          · rw [heq] at hprefix
            exact hnone .expand (.inl rfl) hprefix
          · rw [heq] at hprefix
            exact hnone .select (.inr rfl) hprefix

/-- A marker in other letters is known to the reader of nested texts, and is passed on. -/
theorem nestedOption_otherLetters :
    listMarker? "$Expand=Products".toList = some "$Expand=".toList ∧
      withoutMarker "$Expand=Products".toList = "Products".toList ∧
      (ExpandItem.mk "Category" "$Expand=Products").nested.expand = [⟨"Products", ""⟩] ∧
      (ExpandItem.mk "Category" "$Expand=Products").nestedOption = "$Expand=Products" := by
  decide

end OData.Query
