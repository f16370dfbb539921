/-
Trees of options, and the texts that write them.

An expand term has a query of its own in its parentheses, so a query is a tree: its options, and for
each related record the tree of the options that apply there.  This module says which trees can be
written as they are and what their texts look like.  Options come in any order, a default is not
written, and inside parentheses any of `,` `;` `&` may stand between two options.

Main definitions:

* `Query.OptionTree` — trees of options;
* `Query.OptionTree.ofItem`, `Query.OptionTree.ofOptions` — the tree that is found by reading the
  text of each term in turn;
* `Query.OptionTree.Valid` — counts of 64 bits, plain names, each relationship once;
* `Query.OptionTree.Writes` — the texts of a tree.

Main results:

* `Query.OptionTree.ofItem_eq` — an item stands for the options in its parentheses;
* `Query.OptionTree.exists_writes` — every tree can be written.
-/

import OData.Proofs.Query.Clause

set_option relaxedAutoImplicit false
set_option autoImplicit false

namespace OData.Query

open Text

/-- The options of a query, with the tree of each related record. -/
inductive OptionTree where
  | mk (skip : Nat) (top : Option Nat) (select : List String)
      (expand : List (String × OptionTree))

namespace OptionTree

/-- The tree of a query that asks for nothing. -/
def empty : OptionTree := mk 0 none [] []

/-! ### Reading a tree -/

/-- The tree of the options in an item's parentheses. -/
def ofItem (item : ExpandItem) : OptionTree :=
  mk item.nested.skip item.nested.top item.nested.select
    (item.nested.expand.attach.map fun nested => (nested.1.name, ofItem nested.1))
termination_by item.subQuery.length
decreasing_by exact length_subQuery_lt_of_mem_parseNested nested.2

/-- The tree of some options. -/
def ofOptions (options : Options) : OptionTree :=
  mk options.skip options.top options.select
    (options.expand.map fun item => (item.name, ofItem item))

/-- An item stands for the options in its parentheses. -/
theorem ofItem_eq (item : ExpandItem) : ofItem item = ofOptions item.nested := by
  rw [ofItem, ofOptions]
  simp

end OptionTree

/-! ### Trees that can be written -/

/-- A name that no reader takes apart: it is not empty, has no blanks around it and holds none of
the characters with a meaning. -/
structure IsWord (name : String) : Prop where
  ne_nil : name.toList ≠ []
  trimmed : IsTrimmed name.toList
  plain : ∀ c ∈ name.toList, c ∉ ['(', ')', ',', ';', '&', '=', '$']

/-- Whether a text is plain is found out character by character. -/
theorem plain_iff_all {cs : List Char} :
    (∀ c ∈ cs, c ∉ ['(', ')', ',', ';', '&', '=', '$']) ↔
      (cs.all fun c => c ∉ ['(', ')', ',', ';', '&', '=', '$']) = true := by
  rw [List.all_eq_true]
  exact forall₂_congr fun c _ => decide_eq_true_iff.symm

theorem isWord_iff {name : String} :
    IsWord name ↔ name.toList ≠ [] ∧ IsTrimmed name.toList ∧
      (name.toList.all fun c => c ∉ ['(', ')', ',', ';', '&', '=', '$']) = true := by
  rw [← plain_iff_all]
  exact ⟨fun h => ⟨h.ne_nil, h.trimmed, h.plain⟩, fun ⟨hne, htrim, hplain⟩ => ⟨hne, htrim, hplain⟩⟩

instance (name : String) : Decidable (IsWord name) := decidable_of_iff' _ isWord_iff

namespace OptionTree

/-- Counts are words of 64 bits and a limit is not zero, all names are plain, and no relationship
occurs twice. -/
inductive Valid : OptionTree → Prop
  | mk {skip : Nat} {top : Option Nat} {select : List String}
      {expand : List (String × OptionTree)} :
      skip < countLimit → (∀ n ∈ top, 0 < n ∧ n < countLimit) → (∀ path ∈ select, IsWord path) →
        (expand.map Prod.fst).Nodup → (∀ e ∈ expand, IsWord e.1) → (∀ e ∈ expand, Valid e.2) →
          Valid (mk skip top select expand)

/-! ### Writing a tree -/

/-- The members of each option's value, given the texts of the terms; a default has none. -/
def memberTexts (skip : Nat) (top : Option Nat) (select : List String)
    (terms : List (List Char)) : SystemOption → List (List Char)
  | .skip => if skip = 0 then [] else [Nat.toDigits 10 skip]
  | .top => top.toList.map (Nat.toDigits 10)
  | .select => select.map String.toList
  | .expand => terms

/-- The clause of an option, unless it has no members. -/
def clause? (members : SystemOption → List (List Char)) (option : SystemOption) : Option Clause :=
  if members option = [] then none else some ⟨option, members option⟩

/-- The clauses of the options that have members. -/
def clauses (members : SystemOption → List (List Char)) : List Clause :=
  [.skip, .top, .select, .expand].filterMap (clause? members)

mutual

/-- A text writes a tree: it joins the clauses of its options, in any order. -/
inductive Writes : (Char → Bool) → OptionTree → List Char → Prop
  | mk {isSeparator : Char → Bool} {skip : Nat} {top : Option Nat} {select : List String}
      {expand : List (String × OptionTree)} {terms : List (List Char)} {written : List Clause}
      {text : List Char} :
      WritesTerms expand terms → written.Perm (clauses (memberTexts skip top select terms)) →
        Joined isSeparator (written.map Clause.text) text →
          Writes isSeparator (mk skip top select expand) text

/-- Some texts write expand terms: a name, and a tree in parentheses.  The parentheses of the empty
tree may be left out. -/
inductive WritesTerms : List (String × OptionTree) → List (List Char) → Prop
  | nil : WritesTerms [] []
  | bare {name : String} {rest : List (String × OptionTree)} {terms : List (List Char)} :
      WritesTerms rest terms → WritesTerms ((name, empty) :: rest) (name.toList :: terms)
  | group {name : String} {tree : OptionTree} {content : List Char}
      {rest : List (String × OptionTree)} {terms : List (List Char)} :
      Writes isNestedSeparator tree content → WritesTerms rest terms →
        WritesTerms ((name, tree) :: rest)
          ((name.toList ++ '(' :: (content ++ [')'])) :: terms)

end

/-- Clauses with one and the same separator between them write a tree. -/
theorem Writes.of_intercalate {isSeparator : Char → Bool} (s : Char) (hs : isSeparator s = true)
    {skip : Nat} {top : Option Nat} {select : List String} {expand : List (String × OptionTree)}
    {terms : List (List Char)} (hterms : WritesTerms expand terms) (written : List Clause)
    (hperm : written.Perm (clauses (memberTexts skip top select terms))) :
    Writes isSeparator (.mk skip top select expand) ([s].intercalate (written.map Clause.text)) :=
  .mk hterms hperm ((joined_intercalate s _).mono (by simpa using hs))

mutual

/-- Every tree can be written. -/
theorem exists_writes {isSeparator : Char → Bool} {s : Char} (hs : isSeparator s = true) :
    (tree : OptionTree) → ∃ text, Writes isSeparator tree text
  | mk skip top select expand => by
      obtain ⟨terms, hterms⟩ := exists_writesTerms expand
      exact ⟨_, .of_intercalate s hs hterms _ (.refl _)⟩

theorem exists_writesTerms : (expand : List (String × OptionTree)) →
    ∃ terms, WritesTerms expand terms
  | [] => ⟨[], .nil⟩
  | (name, tree) :: rest => by
      have hcomma : isNestedSeparator ',' = true := rfl
      obtain ⟨content, hcontent⟩ := exists_writes hcomma tree
      obtain ⟨terms, hterms⟩ := exists_writesTerms rest
      exact ⟨_, .group hcontent hterms⟩

end

end OptionTree

end OData.Query
