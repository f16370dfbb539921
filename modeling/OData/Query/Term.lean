/-
Expand terms with their nested options worked out.

The parentheses of an expand term hold a query of their own, whose expand terms hold queries in
turn.  Since a nested term's text is shorter than the text around it, the whole tree can be read at
once, and whoever evaluates it recurses on the tree instead of on the text.

* `Query.Term` — a term, its nested options and its nested terms;
* `Query.Term.ofItem` — the tree of an item;
* `Query.Term.ofItem_eq` — the nested terms are the trees of the nested items.
-/

import OData.Query.Nested

set_option relaxedAutoImplicit false
set_option autoImplicit false

namespace OData.Query

/-- An expand term, the options inside its parentheses and the terms among them. -/
inductive Term where
  | mk (item : ExpandItem) (options : Options) (terms : List Term)

namespace Term

/-- The item that the term was read from. -/
def item : Term → ExpandItem
  | mk item _ _ => item

/-- The relationship that the term names. -/
def name (term : Term) : String := term.item.name

/-- The options inside the parentheses. -/
def options : Term → Options
  | mk _ options _ => options

/-- The terms inside the parentheses. -/
def terms : Term → List Term
  | mk _ _ terms => terms

/-- The tree of an item. -/
def ofItem (item : ExpandItem) : Term :=
  mk item item.nested (item.nested.expand.attach.map fun nested => ofItem nested.1)
termination_by item.subQuery.length
decreasing_by exact length_subQuery_lt_of_mem_parseNested nested.2

theorem ofItem_eq (item : ExpandItem) :
    ofItem item = mk item item.nested (item.nested.expand.map ofItem) := by
  rw [ofItem]
  simp

@[simp] theorem item_ofItem (item : ExpandItem) : (ofItem item).item = item := by
  rw [ofItem_eq]
  rfl

@[simp] theorem options_ofItem (item : ExpandItem) : (ofItem item).options = item.nested := by
  rw [ofItem_eq]
  rfl

@[simp] theorem terms_ofItem (item : ExpandItem) :
    (ofItem item).terms = item.nested.expand.map ofItem := by
  rw [ofItem_eq]
  rfl

end Term

end OData.Query
