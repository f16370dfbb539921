/-
Queries in normal form.

A query is any text, with blanks, stray parentheses and terms that name the same relationship over
and over.  Whatever it is, the options that are read of it are in normal form, at the top level and
inside every pair of parentheses: relationships are named once each, by a trimmed text that holds
none of the characters that end a name, and paths are trimmed and not empty.  The terms of `$expand`
are merged: a relationship stands at the place of its first term and has the text of its last.

That a name holds no separator is a matter of depth.  A term is cut at the separators of depth zero,
in several cuts one inside the other, and nothing is open in front of its first parenthesis.

Main definitions:

* `Query.Merges` — items, each relationship once, at its first place and with its last text;
* `Query.IsItemName` — a name as it can be read;
* `Query.topTerms`, `Query.pieceTerms` — the terms of `$expand` at the top level, and among the
  pieces of a nested text;
* `Query.Options.IsNormal` — options in normal form, made of some terms.

Main results:

* `Query.merges_readTerms` — **terms are merged**;
* `Query.isItemName_of_readTerm` — what is named by a term in one piece;
* `Query.NestedState.terms_foldl_step` — the terms of a nested text are told by the names of its
  pieces;
* `Query.parse_isNormal` — **options are in normal form at every depth**.
-/

import OData.Proofs.Query.Closed
import OData.Proofs.Query.FirstCut
import OData.Proofs.Query.Repeated
import OData.Proofs.Query.Segment

set_option relaxedAutoImplicit false
set_option autoImplicit false

namespace OData.Query

open Text

/-! ### Merging -/

/-- Items are merged: each relationship stands where it first occurs, and has the text with which it
last occurs. -/
structure Merges (items merged : List ExpandItem) : Prop where
  names : merged.map (·.name) = (items.map (·.name)).eraseDups
  last : ∀ item ∈ merged, ∃ before after, items = before ++ item :: after ∧
    item.name ∉ after.map (·.name)

/-- Where no relationship occurs twice, an item that is added takes the place of its namesake. -/
theorem mem_mergeItem {item other : ExpandItem} {items : List ExpandItem}
    (h : (items.map (·.name)).Nodup) (hmem : other ∈ mergeItem item items) :
    other = item ∨ other ∈ items ∧ other.name ≠ item.name := by
  induction items with
  | nil => exact .inl (List.mem_singleton.1 hmem)
  | cons first rest ih =>
      rw [List.map_cons, List.nodup_cons] at h
      rw [mergeItem] at hmem
      split at hmem
      · next hname =>
          refine (List.mem_cons.1 hmem).imp_right fun hrest => ⟨List.mem_cons_of_mem _ hrest, ?_⟩
          intro hsame
          exact h.1 (hname.trans hsame.symm ▸ List.mem_map_of_mem hrest)
      · next hname =>
          rcases List.mem_cons.1 hmem with rfl | hrest
          · exact .inr ⟨List.mem_cons_self, hname⟩
          · exact (ih h.2 hrest).imp_right fun hrest => ⟨List.mem_cons_of_mem _ hrest.1, hrest.2⟩

/-- One more item keeps the others where they are. -/
theorem Merges.concat {items merged : List ExpandItem} (h : Merges items merged)
    (hnodup : (merged.map (·.name)).Nodup) (item : ExpandItem) :
    Merges (items ++ [item]) (mergeItem item merged) where
  names := by
    rw [map_name_mergeItem, h.names, List.map_append, List.eraseDups_append, List.map_singleton,
      List.removeAll, List.filter_singleton]
    by_cases hmem : item.name ∈ items.map (·.name)
    · simp [List.mem_eraseDups.2 hmem, hmem]
    · simp [mt List.mem_eraseDups.1 hmem, hmem, List.eraseDups_cons]
  last := by
    intro other hother
    rcases mem_mergeItem hnodup hother with rfl | ⟨hother, hname⟩
    · exact ⟨items, [], rfl, List.not_mem_nil⟩
    · obtain ⟨before, after, rfl, hlast⟩ := h.last other hother
      refine ⟨before, after ++ [item], by simp, ?_⟩
      rw [List.map_append, List.mem_append, not_or]
      exact ⟨hlast, by simpa using hname⟩

theorem merges_foldl_mergeItem (items : List ExpandItem) :
    Merges items (items.foldl (fun merged item => mergeItem item merged) []) := by
  obtain ⟨items, rfl⟩ : ∃ reversed, items = List.reverse reversed := ⟨items.reverse, by simp⟩
  induction items with
  | nil => exact ⟨rfl, by simp⟩
  | cons item items ih =>
      rw [List.reverse_cons, List.foldl_append]
      exact ih.concat (nodup_name_foldl_mergeItem _ List.nodup_nil) item

/-- **Terms are merged.** -/
theorem merges_readTerms (terms : List (List Char)) :
    Merges (terms.filterMap readTerm) (readTerms terms) :=
  merges_foldl_mergeItem _

/-! ### Names -/

/-- A name that is read of a term: it is not empty, has no blanks around it, and holds none of the
characters at which names end. -/
structure IsItemName (name : String) : Prop where
  ne_nil : name.toList ≠ []
  trimmed : IsTrimmed name.toList
  opening : '(' ∉ name.toList
  comma : ',' ∉ name.toList
  ampersand : '&' ∉ name.toList

/-- The name of a term stands in front of its first parenthesis. -/
theorem exists_front_of_readTerm {term : List Char} {item : ExpandItem}
    (h : readTerm term = some item) :
    ∃ front behind, trim term = front ++ behind ∧ '(' ∉ front ∧ trim front ≠ [] ∧
      item.name = String.ofList (trim front) := by
  obtain ⟨front, behind, hfront, hterm, hopen⟩ : ∃ front behind,
      ((splitOnce '(' (trim term)).getD (trim term, [])).1 = front ∧
        trim term = front ++ behind ∧ '(' ∉ front := by
    cases hsplit : splitOnce '(' (trim term) with
    | none => exact ⟨trim term, [], rfl, by simp, notMem_of_splitOnce_eq_none hsplit⟩
    | some parts =>
        exact ⟨parts.1, '(' :: parts.2, rfl, eq_append_of_splitOnce hsplit,
          notMem_of_splitOnce hsplit⟩
  unfold readTerm at h
  simp only [hfront] at h
  split at h
  · cases h
  · next hname =>
      obtain rfl := Option.some.inj h
      exact ⟨front, behind, hterm, hopen, by simpa using hname, rfl⟩

/-- A term without commas and ampersands at depth zero has none of them in its name. -/
theorem isItemName_of_readTerm {term : List Char} {item : ExpandItem}
    (h : readTerm term = some item) (hcomma : pieces (· == ',') term = [term])
    (hampersand : pieces (· == '&') term = [term]) : IsItemName item.name := by
  obtain ⟨front, behind, hterm, hopen, hne, hname⟩ := exists_front_of_readTerm h
  have hsub : ∀ c ∈ trim front, c ∈ front := fun c hc => (sublist_trim front).subset hc
  have hfree : ∀ mark, pieces (· == mark) term = [term] → mark ∉ trim front := by
    intro mark hmark hmem
    have hself := pieces_trim_eq_self hmark
    rw [hterm] at hself
    simpa using isSeparator_of_notMem_group hself hopen mark (hsub mark hmem)
  rw [hname]
  constructor <;> rw [String.toList_ofList]
  · exact hne
  · exact isTrimmed_trim front
  · exact fun hmem => hopen (hsub _ hmem)
  · exact hfree ',' hcomma
  · exact hfree '&' hampersand

/-! ### The top level -/

/-- The terms of `$expand` at the top level: the texts between the commas of its first value. -/
def topTerms (raw : String) : List (List Char) :=
  ((firstValue .expand (assignments raw.toList)).map (pieces (· == ','))).getD []

theorem expand_parse (raw : String) : (Options.parse raw).expand = readTerms (topTerms raw) := by
  rw [Options.parse, Options.ofAssignments, topTerms]
  cases firstValue .expand (assignments raw.toList) <;> rfl

/-- Only blanks are left out of a text that is trimmed. -/
theorem mem_trim_of_mem {cs : List Char} {c : Char} (hc : c ∈ cs) (hblank : isBlank c = false) :
    c ∈ trim cs := by
  obtain ⟨a, b, ha, hb, heq⟩ := exists_eq_append_trim_append cs
  rw [heq, List.mem_append, List.mem_append] at hc
  rcases hc with hc | hc | hc
  · exact absurd (ha c hc) (by simp [hblank])
  · exact hc
  · exact absurd (hb c hc) (by simp [hblank])

/-- The name of an option has no parenthesis in it. -/
theorem SystemOption.opening_notMem {option : SystemOption} {name : List Char}
    (h : ofName? (trim name) = some option) : '(' ∉ name := by
  intro hmem
  rw [ofName?_eq_some_iff, trim_trim] at h
  have hlabel : lower option.label = option.label := by cases option <;> decide
  have hsame : sameLetters (trim name) option.label = true := sameLetters_iff.2 (h.trans hlabel.symm)
  exact not_mem_name hsame (by decide) (by decide) (mem_trim_of_mem hmem (by decide))

/-- A value has no ampersand at depth zero. -/
theorem pieces_firstValue {option : SystemOption} {raw value : List Char}
    (h : firstValue option (assignments raw) = some value) :
    pieces (· == '&') value = [value] := by
  obtain ⟨pair, hpair, rfl⟩ := Option.map_eq_some_iff.1 h
  have hname : SystemOption.ofName? pair.1 = some option := by simpa using List.find?_some hpair
  obtain ⟨piece, hmem, rfl⟩ := List.mem_map.1 (List.mem_of_find?_eq_some hpair)
  have hpiece := pieces_of_mem_pieces (List.mem_filter.1 hmem).1
  unfold assignment at hname ⊢
  split at hname
  · next name value hsplit =>
      -- what stands in front of the value opens no group
      have hopen : '(' ∉ name ++ ['='] := by
        simpa using SystemOption.opening_notMem hname
      have htext : piece = (name ++ ['=']) ++ (value ++ []) := by
        simpa using eq_append_of_splitOnce hsplit
      rw [htext] at hpiece
      have hvalue := pieces_eq_self_of_append (depth_eq_zero_of_notMem hopen) hpiece
      exact pieces_trim_eq_self hvalue
  · rfl

theorem isItemName_of_mem_parse {raw : String} {item : ExpandItem}
    (h : item ∈ (Options.parse raw).expand) : IsItemName item.name := by
  rw [expand_parse] at h
  obtain ⟨term, hterm, hread⟩ := exists_readTerm_of_mem_readTerms h
  rw [topTerms] at hterm
  cases hvalue : firstValue .expand (assignments raw.toList) with
  | none => simp [hvalue] at hterm
  | some value =>
      rw [hvalue] at hterm
      have hterm : term ∈ pieces (· == ',') value := hterm
      exact isItemName_of_readTerm hread (pieces_of_mem_pieces hterm)
        (pieces_eq_self_of_mem_pieces (by simp [IsParenthesis]) hterm (pieces_firstValue hvalue))

theorem mem_select_parse {raw path : String} (h : path ∈ (Options.parse raw).select) :
    path.toList ≠ [] ∧ IsTrimmed path.toList := by
  rw [Options.parse, Options.ofAssignments] at h
  cases hvalue : firstValue .select (assignments raw.toList) with
  | none => simp [hvalue] at h
  | some value =>
      rw [hvalue] at h
      obtain ⟨text, htext, hkept⟩ := List.mem_filterMap.1 h
      obtain ⟨piece, -, rfl⟩ := List.mem_map.1 htext
      split at hkept
      · cases hkept
      · next hne =>
          obtain rfl := Option.some.inj hkept
          rw [String.toList_ofList]
          exact ⟨by simpa using hne, isTrimmed_trim piece⟩

/-! ### Inside parentheses -/

/-- The terms of `$expand` among the pieces of a nested text, given whether a piece without a name
belongs to it: a piece with a name goes by its name, and one without goes by the piece before. -/
def pieceTerms : Bool → List (List Char) → List (List Char)
  | _, [] => []
  | belongs, piece :: rest =>
    match namedPiece piece with
    | some (name, value) =>
      if SystemOption.ofName? name = some .expand then value :: pieceTerms true rest
      else pieceTerms false rest
    | none => if belongs then piece :: pieceTerms true rest else pieceTerms false rest

namespace NestedState

/-- A piece belongs to `$expand` by its name, or by the piece before if it has none. -/
theorem attribute?_expand_iff (state : NestedState) (piece : List Char) :
    (state.attribute? piece).1 = some .expand ↔
      match namedPiece piece with
      | some (name, _) => SystemOption.ofName? name = some .expand
      | none => state.current = some .expand := by
  rw [attribute?]
  cases hnamed : namedPiece piece with
  | none => exact Iff.rfl
  | some parts =>
      obtain ⟨name, value⟩ := parts
      dsimp only
      cases hname : SystemOption.ofName? name with
      | none => simp
      | some option =>
          cases option with
          | skip => cases hskip : state.skip <;> simp
          | top => cases htop : state.top <;> simp
          | expand | select => simp

theorem current_step_iff (state : NestedState) (piece : List Char) :
    (state.step piece).current = some .expand ↔ (state.attribute? piece).1 = some .expand := by
  rw [step]
  split <;> simp_all

theorem terms_step (state : NestedState) (piece : List Char) :
    (state.step piece).terms
      = state.terms ++ if (state.attribute? piece).1 = some .expand
          then [(state.attribute? piece).2] else [] := by
  rw [step]
  split <;> simp_all

/-- The terms of a nested text are told by the names of its pieces. -/
theorem terms_foldl_step (pieces : List (List Char)) (state : NestedState) :
    (pieces.foldl step state).terms
      = state.terms ++ pieceTerms (state.current = some .expand) pieces := by
  induction pieces generalizing state with
  | nil => simp [pieceTerms]
  | cons piece rest ih =>
      have hiff := state.attribute?_expand_iff piece
      have htext : (state.attribute? piece).2
          = match namedPiece piece with
            | some (_, value) => value
            | none => piece := by
        rw [attribute?]
        cases namedPiece piece with
        | none => rfl
        | some parts =>
            dsimp only
            split <;> rfl
      rw [List.foldl_cons, ih, terms_step, List.append_assoc, pieceTerms]
      refine congrArg (state.terms ++ ·) ?_
      cases hnamed : namedPiece piece with
      | none =>
          rw [hnamed] at hiff htext
          by_cases hcurrent : state.current = some .expand
          · simp [current_step_iff, hiff, htext, hcurrent]
          · simp [current_step_iff, hiff, hcurrent]
      | some parts =>
          rw [hnamed] at hiff htext
          by_cases hname : SystemOption.ofName? parts.1 = some .expand
          · simp [current_step_iff, hiff, htext, hname]
          · simp [current_step_iff, hiff, hname]

theorem mem_select_step {state : NestedState} {piece path : List Char}
    (h : path ∈ (state.step piece).select) :
    path ∈ state.select ∨ path ≠ [] ∧ path = (state.attribute? piece).2 := by
  unfold step at h
  split at h
  case h_2 text heq =>
    rw [heq]
    split at h
    · exact .inl h
    · next hne =>
        rcases List.mem_append.1 h with h | h
        · exact .inl h
        · obtain rfl := List.mem_singleton.1 h
          exact .inr ⟨by simpa using hne, rfl⟩
  all_goals exact .inl h

/-- The text of a trimmed piece is trimmed, whatever the piece belongs to. -/
theorem isTrimmed_attribute? (state : NestedState) (piece : List Char) :
    IsTrimmed (state.attribute? (trim piece)).2 := by
  rcases state.attribute?_snd (trim piece) with hself | ⟨name, hnamed⟩
  · rw [hself]
    exact isTrimmed_trim piece
  · obtain ⟨-, -, after, -, heq⟩ := namedPiece_eq_some_iff.1 hnamed
    rw [heq]
    exact isTrimmed_trim after

/-- The paths of a nested text are trimmed and not empty. -/
theorem mem_select_foldl_step {texts : List (List Char)} {state : NestedState} {path : List Char}
    (hstate : ∀ path ∈ state.select, path ≠ [] ∧ IsTrimmed path)
    (h : path ∈ ((texts.map trim).foldl step state).select) : path ≠ [] ∧ IsTrimmed path := by
  induction texts generalizing state with
  | nil => exact hstate path h
  | cons text texts ih =>
      refine ih (fun path hpath => ?_) h
      rcases mem_select_step hpath with hpath | ⟨hne, rfl⟩
      · exact hstate path hpath
      · exact ⟨hne, state.isTrimmed_attribute? text⟩

end NestedState

theorem nestedTerms_eq (content : String) :
    nestedTerms content = pieceTerms true (nestedPieces content.toList) := by
  rw [nestedTerms, NestedState.terms_foldl_step]
  rfl

/-- The terms of a nested text have no separator at depth zero. -/
theorem pieces_of_mem_nestedTerms {content : String} {term : List Char}
    (h : term ∈ nestedTerms content) : pieces isNestedSeparator term = [term] := by
  rcases NestedState.mem_terms_foldl _ _ h with h | ⟨piece, hpiece, before, rfl⟩
  · cases h
  · obtain ⟨text, htext, rfl⟩ := List.mem_map.1 hpiece
    have hself := pieces_trim_eq_self (pieces_of_mem_pieces htext)
    rcases before.attribute?_snd (trim text) with hsame | ⟨name, hnamed⟩
    · rw [hsame]
      exact hself
    · obtain ⟨-, hopen, after, hsplit, heq⟩ := namedPiece_eq_some_iff.1 hnamed
      have hfront : '(' ∉ name ++ ['='] := by simpa using hopen
      have hpiece : trim text = (name ++ ['=']) ++ (after ++ []) := by
        simpa using eq_append_of_splitOnce hsplit
      rw [hpiece] at hself
      rw [heq]
      exact pieces_trim_eq_self
        (pieces_eq_self_of_append (depth_eq_zero_of_notMem hfront) hself)

theorem isItemName_of_mem_parseNested {content : String} {item : ExpandItem}
    (h : item ∈ (Options.parseNested content).expand) : IsItemName item.name := by
  rw [expand_parseNested] at h
  obtain ⟨term, hterm, hread⟩ := exists_readTerm_of_mem_readTerms h
  have hself := pieces_of_mem_nestedTerms hterm
  exact isItemName_of_readTerm hread
    (piecesFrom_eq_self_mono (by simp [isNestedSeparator]) hself)
    (piecesFrom_eq_self_mono (by simp [isNestedSeparator]) hself)

/-! ### Normal form -/

/-- Options in normal form, made of some terms of `$expand`: relationships have names that can be
read, each once, paths are trimmed and not empty, and the terms that name a relationship are
merged. -/
structure Options.IsNormal (options : Options) (terms : List (List Char)) : Prop where
  distinct : (options.expand.map (·.name)).Nodup
  name : ∀ item ∈ options.expand, IsItemName item.name
  path : ∀ path ∈ options.select, path.toList ≠ [] ∧ IsTrimmed path.toList
  merges : Merges (terms.filterMap readTerm) options.expand

/-- What is read at the top level is in normal form. -/
theorem Options.isNormal_parse (raw : String) : (parse raw).IsNormal (topTerms raw) where
  distinct := by
    rw [expand_parse]
    exact nodup_name_readTerms _
  name := fun _ hitem => isItemName_of_mem_parse hitem
  path := fun _ hpath => mem_select_parse hpath
  merges := by
    rw [expand_parse]
    exact merges_readTerms _

/-- What is read inside parentheses is in normal form. -/
theorem Options.isNormal_parseNested (content : String) :
    (parseNested content).IsNormal (pieceTerms true (nestedPieces content.toList)) where
  distinct := nodup_name_readTerms _
  name := fun _ hitem => isItemName_of_mem_parseNested hitem
  path := by
    intro path hpath
    obtain ⟨text, htext, rfl⟩ := List.mem_map.1 hpath
    rw [String.toList_ofList]
    exact NestedState.mem_select_foldl_step (by simp) htext
  merges := by
    rw [expand_parseNested, ← nestedTerms_eq]
    exact merges_readTerms _

/-- **Options are in normal form at every depth**: what is read of a query, and what is read of the
text in the parentheses of an item, wherever the item stands in the query. -/
theorem parse_isNormal (raw : String) :
    (Options.parse raw).IsNormal (topTerms raw) ∧
      ∀ item, (Options.parse raw).HasItem item →
        item.nested.IsNormal (pieceTerms true (nestedPieces item.subQuery.toList)) :=
  ⟨Options.isNormal_parse raw, fun item _ => Options.isNormal_parseNested item.subQuery⟩

/-- The text in the parentheses of a term, where one relationship is named in two lists. -/
def repeatedText : String := "Shop(a) ,Author;$expand=Shop(b)"

/-- Terms that name relationships twice, the last of them with a group that is not closed. -/
def repeatedQuery : String := "$expand=Author, Books( " ++ repeatedText ++ "),Author(Shop"

theorem parse_isNormal_repeated :
    (Options.parse repeatedQuery).expand = [⟨"Author", "Shop"⟩, ⟨"Books", repeatedText⟩] ∧
      (Options.parse repeatedQuery).IsNormal (topTerms repeatedQuery) ∧
      (ExpandItem.nested ⟨"Books", repeatedText⟩).expand = [⟨"Shop", "b"⟩, ⟨"Author", ""⟩] ∧
      (ExpandItem.nested ⟨"Books", repeatedText⟩).IsNormal
        (pieceTerms true (nestedPieces repeatedText.toList)) := by
  have hexpand : (Options.parse repeatedQuery).expand
      = [⟨"Author", "Shop"⟩, ⟨"Books", repeatedText⟩] := by decide +kernel
  have hitem : (Options.parse repeatedQuery).HasItem ⟨"Books", repeatedText⟩ :=
    .here (by rw [hexpand]; exact List.mem_cons_of_mem _ List.mem_cons_self)
  obtain ⟨htop, hinside⟩ := parse_isNormal repeatedQuery
  exact ⟨hexpand, htop, by decide, hinside _ hitem⟩

end OData.Query
