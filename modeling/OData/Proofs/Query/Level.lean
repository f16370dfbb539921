/-
Levels of parentheses.

Whatever is read of a text is made of characters of the text: trimming, cutting, naming an option
and taking the content of a group only leave characters out.  An expand term with a text of its own
leaves out at least the parenthesis in front of it.  So the number of opening parentheses bounds how
deep terms can stand inside each other, whatever else the text looks like.

* `Query.ExpandItem.level` — the number of levels that an item can open;
* `Query.Options.HasItem` — the items of a query at whatever level;
* `Query.level_le_of_mem_parse` — **the items of a query are bounded by its opening parentheses**;
* `Query.level_lt_of_mem_nested` — **an item opens more levels than the items inside it**.
-/

import OData.Query.Assignment
import OData.Query.Nested

set_option relaxedAutoImplicit false
set_option autoImplicit false

namespace OData.Query

open Text

/-- An item stands in a query: among its terms, or inside the parentheses of one of them. -/
inductive Options.HasItem : Options → ExpandItem → Prop
  | here {options : Options} {item : ExpandItem} : item ∈ options.expand → HasItem options item
  | inside {options : Options} {outer item : ExpandItem} :
      outer ∈ options.expand → HasItem outer.nested item → HasItem options item

/-- A list that has the items inside its items has all items of a query. -/
theorem Options.HasItem.mem {options : Options} {item : ExpandItem} (h : options.HasItem item)
    {items : List ExpandItem} (hitems : ∀ other ∈ items, ∀ nested ∈ other.nested.expand,
      nested ∈ items) (hexpand : ∀ other ∈ options.expand, other ∈ items) : item ∈ items := by
  induction h with
  | here hmem => exact hexpand _ hmem
  | inside houter _ ih => exact ih (hitems _ (hexpand _ houter))

/-- The number of levels that an item can open: none without a text of its own, and otherwise one
for the text and one for each opening parenthesis in it. -/
def ExpandItem.level (item : ExpandItem) : Nat :=
  if item.subQuery = "" then 0 else item.subQuery.toList.count '(' + 1

/-- A term opens no more levels than it has opening parentheses. -/
theorem level_le_of_readTerm {term : List Char} {item : ExpandItem}
    (h : readTerm term = some item) : item.level ≤ term.count '(' := by
  have htrim : (trim term).count '(' ≤ term.count '(' := (sublist_trim term).count_le '('
  unfold readTerm at h
  simp only at h
  split at h
  · cases h
  · obtain rfl := Option.some.inj h
    cases hs : splitOnce '(' (trim term) with
    | none =>
        -- without a parenthesis there is no text of its own
        simp [ExpandItem.level, groupContent, groupContentFrom]
    | some parts =>
        obtain ⟨before, after⟩ := parts
        have hcontent : (trim (groupContent after)).count '(' ≤ after.count '(' :=
          ((sublist_trim _).trans (sublist_groupContent after)).count_le '('
        have hcount : (trim term).count '(' = before.count '(' + (after.count '(' + 1) := by
          rw [eq_append_of_splitOnce hs, List.count_append, List.count_cons_self]
        simp only [ExpandItem.level, Option.getD_some, String.toList_ofList]
        split <;> omega

theorem level_le_of_mem_parseNested {content : String} {item : ExpandItem}
    (h : item ∈ (Options.parseNested content).expand) :
    item.level ≤ content.toList.count '(' := by
  obtain ⟨term, hterm, hread⟩ := exists_readTerm_of_mem_parseNested h
  exact Nat.le_trans (level_le_of_readTerm hread) (hterm.count_le '(')

/-- **An item opens more levels than the items inside it.** -/
theorem level_lt_of_mem_nested {item nested : ExpandItem} (h : nested ∈ item.nested.expand) :
    nested.level < item.level := by
  have hle := level_le_of_mem_parseNested h
  have hne : item.subQuery ≠ "" := by
    intro hempty
    have hlt := length_subQuery_lt_of_mem_parseNested h
    rw [hempty] at hlt
    exact absurd hlt (Nat.not_lt_zero _)
  rw [ExpandItem.level.eq_def item, if_neg hne]
  omega

theorem level_lt_of_mem_nested_of_lt {item : ExpandItem} {n : Nat} (h : item.level < n + 1) :
    ∀ nested ∈ item.nested.expand, nested.level < n :=
  fun _ hnested => Nat.lt_of_lt_of_le (level_lt_of_mem_nested hnested) (Nat.le_of_lt_succ h)

theorem eq_nil_of_level_lt_zero {items : List ExpandItem} (h : ∀ item ∈ items, item.level < 0) :
    items = [] :=
  List.eq_nil_iff_forall_not_mem.2 fun item hitem => Nat.not_lt_zero _ (h item hitem)

theorem exists_level_lt (items : List ExpandItem) : ∃ n, ∀ item ∈ items, item.level < n := by
  induction items with
  | nil => exact ⟨0, by simp⟩
  | cons item items ih =>
      obtain ⟨n, hn⟩ := ih
      refine ⟨max n (item.level + 1), fun other hother => ?_⟩
      rcases List.mem_cons.1 hother with rfl | hother
      · omega
      · have := hn other hother
        omega

/-! ### The top level -/

theorem sublist_assignment (piece : List Char) : (assignment piece).2.Sublist piece := by
  unfold assignment
  split
  · next name value hs => exact (sublist_trim value).trans (sublist_after_of_splitOnce hs)
  · exact List.nil_sublist _

theorem sublist_withoutMark (cs : List Char) : (withoutMark cs).Sublist cs := by
  unfold withoutMark
  split
  · next rest hrest =>
      have hmark : rest.Sublist (trim cs) := hrest ▸ (List.Sublist.refl rest).cons '?'
      exact hmark.trans (sublist_trim cs)
  · exact sublist_trim cs

/-- A value has no other characters than the text that it is read from. -/
theorem sublist_of_firstValue {option : SystemOption} {raw value : List Char}
    (h : firstValue option (assignments raw) = some value) : value.Sublist raw := by
  obtain ⟨pair, hpair, rfl⟩ := Option.map_eq_some_iff.1 h
  obtain ⟨piece, hpiece, rfl⟩ := List.mem_map.1 (List.mem_of_find?_eq_some hpair)
  have hpiece := sublist_of_mem_pieces (List.mem_filter.1 hpiece).1
  exact (sublist_assignment piece).trans (hpiece.trans (sublist_withoutMark raw))

/-- **The items of a query are bounded by its opening parentheses.** -/
theorem level_le_of_mem_parse {raw : String} {item : ExpandItem}
    (h : item ∈ (Options.parse raw).expand) : item.level ≤ raw.toList.count '(' := by
  rw [Options.parse, Options.ofAssignments] at h
  cases hvalue : firstValue .expand (assignments raw.toList) with
  | none => simp [hvalue] at h
  | some value =>
      rw [hvalue] at h
      obtain ⟨term, hmem, hread⟩ := exists_readTerm_of_mem_readTerms h
      have hterm := (sublist_of_mem_pieces hmem).trans (sublist_of_firstValue hvalue)
      exact Nat.le_trans (level_le_of_readTerm hread) (hterm.count_le '(')

end OData.Query
