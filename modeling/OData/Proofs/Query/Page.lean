/-
Queries for one page.

A page is asked for by `$skip` and `$top` in front of whatever else is asked for.  The two clauses
close all parentheses that they open, so that the query behind them is cut as it is without them;
what it sets on its own is read again, except that the window is that of the page.  A query without
a window of its own therefore asks for the same expansions and fields on every page.

Main definitions:

* `Query.pageQuery` — a query for a page;
* `Query.IsUnpaged`, `Query.IsUnmarked` — queries that a page can be made of.

Main results:

* `Query.firstValue_assignments` — the value of an option depends on the trimmed pieces only;
* `Query.parse_pageQuery` — **a query for a page sets its window and what the query behind it
  sets**.
-/

import Mathlib.Data.List.Find
import OData.Proofs.Query.Spelling

set_option relaxedAutoImplicit false
set_option autoImplicit false

namespace OData.Query

open Text

/-! ### Values of options -/

theorem firstValue_cons (option : SystemOption) (pair : List Char × List Char)
    (pairs : List (List Char × List Char)) :
    firstValue option (pair :: pairs)
      = if SystemOption.ofName? pair.1 = some option then some pair.2
        else firstValue option pairs := by
  rw [firstValue, List.find?_cons]
  by_cases h : SystemOption.ofName? pair.1 = some option
  · simp [h]
  · simp [h, firstValue]

theorem firstValue_eq_none_iff {option : SystemOption} {pairs : List (List Char × List Char)} :
    firstValue option pairs = none ↔
      ∀ pair ∈ pairs, SystemOption.ofName? pair.1 ≠ some option := by
  simp [firstValue]

/-- Neither empty pieces nor blanks around pieces change the value of an option. -/
theorem firstValue_assignments (option : SystemOption) (raw : List Char) :
    firstValue option (assignments raw)
      = firstValue option (((pieces (· == '&') (withoutMark raw)).map trim).map assignment) := by
  have hassignment : assignment ∘ trim = assignment := funext assignment_trim
  rw [assignments, List.map_map, hassignment, firstValue, firstValue, List.find?_map,
    List.find?_map, List.find?_filter]
  congr 2
  refine List.find?_congr fun piece _ => ?_
  cases piece with
  | nil => cases option <;> rfl
  | cons c piece => simp

/-- A query that begins with no question mark, which would be taken for the one in front of it. -/
def IsUnmarked (raw : List Char) : Prop := (trim raw).head? ≠ some '?'

instance (raw : List Char) : Decidable (IsUnmarked raw) :=
  inferInstanceAs (Decidable ((trim raw).head? ≠ some '?'))

theorem IsUnmarked.withoutMark_eq {raw : List Char} (h : IsUnmarked raw) :
    withoutMark raw = trim raw := by
  rw [IsUnmarked] at h
  rw [withoutMark]
  split
  · next rest heq => exact absurd (by rw [heq]; rfl) h
  · rfl

theorem IsUnmarked.firstValue_assignments {raw : List Char} (h : IsUnmarked raw)
    (option : SystemOption) :
    firstValue option (assignments raw)
      = firstValue option ((pieces (· == '&') raw).map assignment) := by
  have hseparator : ∀ c, (c == '&') = true → isBlank c = false := by simp; rfl
  have hassignment : assignment ∘ trim = assignment := funext assignment_trim
  rw [Query.firstValue_assignments, h.withoutMark_eq, map_trim_pieces_trim hseparator, List.map_map,
    hassignment]

/-! ### Clauses in front of a query -/

theorem Clause.isUnmarked_text_append (clause : Clause) (raw : List Char) :
    IsUnmarked (clause.text ++ raw) := by
  obtain ⟨rest, hrest⟩ := List.head?_eq_some_iff.1 clause.head?_text
  have hdollar : isBlank '$' = false := rfl
  rw [IsUnmarked, hrest, List.cons_append, trim_cons hdollar]
  simp

/-- The value of an option is that of a clause in front, or else that of the rest. -/
theorem Clause.Sound.firstValue_append {clause : Clause} (h : clause.Sound) (option : SystemOption)
    (raw : List Char) :
    firstValue option ((OData.Query.pieces (· == '&') (clause.text ++ '&' :: raw)).map assignment)
      = if clause.option = option then some clause.value
        else firstValue option ((OData.Query.pieces (· == '&') raw).map assignment) := by
  have hcut : OData.Query.pieces (· == '&') (clause.text ++ '&' :: raw)
      = clause.text :: OData.Query.pieces (· == '&') raw := by
    rw [pieces_append_separator (by simp [IsParenthesis]) (by simp)
      h.isWhole_text.balanced.depth_eq, h.isWhole_text.pieces_eq, List.singleton_append]
  rw [hcut, List.map_cons, assignment_text h, firstValue_cons, SystemOption.ofName?_label]
  simp only [Option.some.injEq]

/-! ### Queries for a page -/

/-- The clause of a count. -/
def countClause (option : SystemOption) (n : Nat) : Clause := ⟨option, [Nat.toDigits 10 n]⟩

@[simp] theorem value_countClause (option : SystemOption) (n : Nat) :
    (countClause option n).value = Nat.toDigits 10 n := by
  simp [countClause, Clause.value]

theorem sound_countClause (option : SystemOption) (n : Nat) : (countClause option n).Sound where
  ne_nil := List.cons_ne_nil _ _
  isMember m hm := List.mem_singleton.1 hm ▸ isMember_toDigits n
  count _ := by rw [value_countClause]; rfl

/-- A query for the records behind the first `start`, at most `size` of them, with everything else
that a query asks for. -/
def pageQuery (start size : Nat) (query : String) : String :=
  "$skip=" ++ toString start ++ "&$top=" ++ toString size ++ "&" ++ query

theorem toList_pageQuery (start size : Nat) (query : String) :
    (pageQuery start size query).toList
      = (countClause .skip start).text
        ++ '&' :: ((countClause .top size).text ++ '&' :: query.toList) := by
  have hskip : "$skip=".toList = SystemOption.skip.label ++ ['='] := rfl
  have htop : "&$top=".toList = '&' :: (SystemOption.top.label ++ ['=']) := rfl
  have hdigits : ∀ n : Nat, (toString n).toList = Nat.toDigits 10 n := fun n => by simp
  simp only [pageQuery, String.toList_append, hskip, htop, hdigits, Clause.text, value_countClause]
  simp [countClause]

/-- The value of an option in a query for a page. -/
theorem firstValue_pageQuery (start size : Nat) {query : String} (h : IsUnmarked query.toList)
    (option : SystemOption) :
    firstValue option (assignments (pageQuery start size query).toList)
      = match option with
        | .skip => some (Nat.toDigits 10 start)
        | .top => some (Nat.toDigits 10 size)
        | other => firstValue other (assignments query.toList) := by
  rw [toList_pageQuery, (Clause.isUnmarked_text_append _ _).firstValue_assignments,
    (sound_countClause .skip start).firstValue_append,
    (sound_countClause .top size).firstValue_append, ← h.firstValue_assignments, value_countClause,
    value_countClause]
  cases option <;> rfl

/-- **A query for a page sets its window and what the query behind it sets.**  A start that is too
large for a count is read as none. -/
theorem parse_pageQuery (start : Nat) {size : Nat} (hpos : 0 < size) (hsize : size < countLimit)
    {query : String} (h : IsUnmarked query.toList) :
    Options.parse (pageQuery start size query)
      = { Options.parse query with
          skip := if start < countLimit then start else 0
          top := some size } := by
  have hskip : ((if start < countLimit then some start else none).getD 0)
      = if start < countLimit then start else 0 := by
    split <;> rfl
  simp only [Options.parse, Options.ofAssignments, firstValue_pageQuery start size h,
    Option.bind_some, readLimit, readCount_digits, if_pos hsize, Option.filter_some, hpos,
    decide_true, if_true, hskip]

/-- A query without a window: it sets neither `$skip` nor `$top`. -/
def IsUnpaged (query : String) : Prop :=
  ∀ pair ∈ assignments query.toList, SystemOption.ofName? pair.1 ≠ some .skip ∧
    SystemOption.ofName? pair.1 ≠ some .top

instance (query : String) : Decidable (IsUnpaged query) :=
  inferInstanceAs (Decidable (∀ pair ∈ assignments query.toList,
    SystemOption.ofName? pair.1 ≠ some .skip ∧ SystemOption.ofName? pair.1 ≠ some .top))

theorem IsUnpaged.skip_eq {query : String} (h : IsUnpaged query) :
    (Options.parse query).skip = 0 := by
  have hnone : firstValue .skip (assignments query.toList) = none :=
    firstValue_eq_none_iff.2 fun pair hpair => (h pair hpair).1
  rw [Options.parse, Options.ofAssignments, hnone]
  rfl

theorem IsUnpaged.top_eq {query : String} (h : IsUnpaged query) :
    (Options.parse query).top = none := by
  have hnone : firstValue .top (assignments query.toList) = none :=
    firstValue_eq_none_iff.2 fun pair hpair => (h pair hpair).2
  rw [Options.parse, Options.ofAssignments, hnone]
  rfl

end OData.Query
