/-
Queries inside the parentheses of an expand term.

Here `,` `;` and `&` all separate pieces, and a comma also separates the members of a list.  A piece
without a name therefore continues the option before it, and a first piece without a name is an
expand term.  A count takes one piece; a second `$skip` or `$top` is ignored, while a second
`$expand` or `$select` adds to the first.

* `Query.NestedState`, `NestedState.step` — what has been read so far, and one more piece;
* `Query.Options.parseNested` — the options of a nested text;
* `Query.ExpandItem.nested`, `ExpandItem.nestedOption` — a term's own options, and the text that an
  expansion capability is given;
* `Query.length_subQuery_lt_of_mem_parseNested` — **a nested term's text is shorter than the text it
  stands in**, which bounds expansion by the query text.
-/

import OData.Query.Value

set_option relaxedAutoImplicit false
set_option autoImplicit false

namespace OData.Query

open Text

/-- The name and the trimmed value of a piece that starts with `$name=`.  A parenthesis before the
equals sign makes it a piece without a name. -/
def namedPiece (piece : List Char) : Option (List Char × List Char) :=
  match piece with
  | '$' :: _ =>
    match splitOnce '=' piece with
    | some (name, value) => if name.contains '(' then none else some (name, trim value)
    | none => none
  | _ => none

/-- What has been read of a nested query so far. -/
structure NestedState where
  /-- The option that a piece without a name continues. -/
  current : Option SystemOption := some .expand
  /-- The value of `$skip`, once it has occurred. -/
  skip : Option (Option Nat) := none
  /-- The value of `$top`, once it has occurred. -/
  top : Option (Option Nat) := none
  /-- The terms of `$expand` so far. -/
  terms : List (List Char) := []
  /-- The paths of `$select` so far. -/
  select : List (List Char) := []

namespace NestedState

/-- The option that a piece belongs to, and its text.  A second `$skip` or `$top` belongs to
none. -/
def attribute? (state : NestedState) (piece : List Char) : Option SystemOption × List Char :=
  match namedPiece piece with
  | none => (state.current, piece)
  | some (name, value) =>
    match SystemOption.ofName? name with
    | some .skip => (if state.skip.isSome then none else some .skip, value)
    | some .top => (if state.top.isSome then none else some .top, value)
    | option => (option, value)

/-- Reads one trimmed piece.  A count takes one piece only; terms and paths take any number. -/
def step (state : NestedState) (piece : List Char) : NestedState :=
  match state.attribute? piece with
  | (some .expand, text) =>
    { state with current := some .expand, terms := state.terms ++ [text] }
  | (some .select, text) =>
    { state with
      current := some .select
      select := if text.isEmpty then state.select else state.select ++ [text] }
  | (some .skip, text) => { state with current := none, skip := some (readCount text) }
  | (some .top, text) => { state with current := none, top := some (readLimit text) }
  | (none, _) => { state with current := none }

/-- The options that have been read. -/
def options (state : NestedState) : Options where
  skip := (state.skip.bind id).getD 0
  top := state.top.bind id
  expand := readTerms state.terms
  select := state.select.map String.ofList

end NestedState

/-- Whether a character separates pieces inside parentheses. -/
def isNestedSeparator (c : Char) : Bool := c == ',' || c == ';' || c == '&'

/-- The trimmed pieces of a nested query. -/
def nestedPieces (content : List Char) : List (List Char) :=
  (pieces isNestedSeparator content).map trim

/-- The options of the text in an expand term's parentheses. -/
def Options.parseNested (content : String) : Options :=
  ((nestedPieces content.toList).foldl NestedState.step {}).options

namespace ExpandItem

/-- The options that apply to the related records. -/
def nested (item : ExpandItem) : Options := .parseNested item.subQuery

/-- The text in parentheses without leading blanks and without a leading `$expand=` or
`$select=`. -/
def nestedOption (item : ExpandItem) : String :=
  let text := trimStart item.subQuery.toList
  let rest :=
    if "$expand=".toList.isPrefixOf text then text.drop 8
    else if "$select=".toList.isPrefixOf text then text.drop 8
    else text
  String.ofList rest

end ExpandItem

/-! ### Nested terms are shorter -/

/-- A named piece starts with a dollar sign and is cut at its first equals sign, before which there
is no parenthesis. -/
theorem namedPiece_eq_some_iff {piece name value : List Char} :
    namedPiece piece = some (name, value) ↔ piece.head? = some '$' ∧ '(' ∉ name ∧
      ∃ after, splitOnce '=' piece = some (name, after) ∧ value = trim after := by
  constructor
  · intro h
    unfold namedPiece at h
    split at h
    · split at h
      · rename_i name' after hsplit
        split at h
        · cases h
        · rename_i hopen
          obtain ⟨rfl, rfl⟩ := Prod.mk.inj (Option.some.inj h)
          exact ⟨rfl, by simpa using hopen, after, hsplit, rfl⟩
      · cases h
    · cases h
  · rintro ⟨hhead, hopen, after, hsplit, rfl⟩
    cases piece with
    | nil => cases hhead
    | cons c piece =>
      obtain rfl : c = '$' := by simpa using hhead
      simp [namedPiece, hsplit, hopen]

theorem sublist_of_namedPiece {piece name value : List Char}
    (h : namedPiece piece = some (name, value)) : value.Sublist piece := by
  obtain ⟨-, -, after, hsplit, rfl⟩ := namedPiece_eq_some_iff.1 h
  exact (sublist_trim after).trans (sublist_after_of_splitOnce hsplit)

/-- The text of a piece is the piece itself, or what stands behind its name. -/
theorem NestedState.attribute?_snd (state : NestedState) (piece : List Char) :
    (state.attribute? piece).2 = piece ∨
      ∃ name, namedPiece piece = some (name, (state.attribute? piece).2) := by
  unfold attribute?
  split
  · exact .inl rfl
  · rename_i name value h
    refine .inr ⟨name, ?_⟩
    split <;> exact h

/-- Whatever a piece belongs to, its text has no other characters than the piece. -/
theorem NestedState.sublist_attribute? (state : NestedState) (piece : List Char) :
    (state.attribute? piece).2.Sublist piece := by
  rcases state.attribute?_snd piece with h | ⟨name, h⟩
  · exact h.symm ▸ List.Sublist.refl piece
  · exact sublist_of_namedPiece h

theorem NestedState.mem_terms_step {state : NestedState} {piece term : List Char}
    (h : term ∈ (state.step piece).terms) :
    term ∈ state.terms ∨ term = (state.attribute? piece).2 := by
  unfold step at h
  split at h
  · rename_i text heq
    rw [heq]
    exact (List.mem_append.1 h).imp id List.mem_singleton.1
  all_goals exact .inl h

/-- Every term is the text of one of the pieces. -/
theorem NestedState.mem_terms_foldl (ps : List (List Char)) (state : NestedState)
    {term : List Char} (h : term ∈ (ps.foldl step state).terms) :
    term ∈ state.terms ∨
      ∃ piece ∈ ps, ∃ before : NestedState, term = (before.attribute? piece).2 := by
  induction ps generalizing state with
  | nil => exact .inl h
  | cons p ps ih =>
    rcases ih _ h with h | ⟨piece, hpiece, hterm⟩
    · rcases mem_terms_step h with h | h
      · exact .inl h
      · exact .inr ⟨p, List.mem_cons_self, state, h⟩
    · exact .inr ⟨piece, List.mem_cons_of_mem _ hpiece, hterm⟩

/-- Every nested item is read from a term that has no other characters than the text. -/
theorem exists_readTerm_of_mem_parseNested {content : String} {item : ExpandItem}
    (h : item ∈ (Options.parseNested content).expand) :
    ∃ term : List Char, term.Sublist content.toList ∧ readTerm term = some item := by
  obtain ⟨term, hmem, hread⟩ := exists_readTerm_of_mem_readTerms h
  refine ⟨term, ?_, hread⟩
  rcases NestedState.mem_terms_foldl _ _ hmem with h | ⟨piece, hpiece, before, rfl⟩
  · cases h
  · obtain ⟨text, htext, rfl⟩ := List.mem_map.1 hpiece
    have htrim := before.sublist_attribute? (trim text)
    exact htrim.trans ((sublist_trim text).trans (sublist_of_mem_pieces htext))

/-- The text in a nested term's parentheses is shorter than the text that the term stands in. -/
theorem length_subQuery_lt_of_mem_parseNested {content : String} {item : ExpandItem}
    (h : item ∈ (Options.parseNested content).expand) :
    item.subQuery.length < content.length := by
  obtain ⟨term, hterm, hread⟩ := exists_readTerm_of_mem_parseNested h
  have hlt := length_subQuery_lt_of_readTerm hread
  have hle := hterm.length_le
  rw [String.length_toList] at hle
  omega

end OData.Query
