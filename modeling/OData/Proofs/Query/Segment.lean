/-
The segments of a query.

A query is cut at its ampersands, and each segment between them names an option and gives it a
value.  A segment may be any text that holds together on its own: blank, without a value, with
parentheses that close nothing, with a value that nobody understands.  What the query sets is then
decided by the names alone.  The first segment with the name of an option sets it, even to
something that cannot be read, and no other segment matters.  So later segments of the same name
and segments of other names can be left out, and segments of different names can change places.

Main definitions:

* `Query.Segment` — a text that holds together between ampersands;
* `Query.Segment.name`, `Query.Segment.value` — what it names, and what it says about it;
* `Query.segmentQuery` — the query of some segments;
* `Query.Segment.IsIdle` — the segment names no option, or one that has been named before;
* `Query.Reorders` — the same segments, with those of one name in the same order.

Main results:

* `Query.SystemOption.ofName?_eq_some_iff` — an option is known by its name in lower case;
* `Query.firstValue_segmentQuery` — **an option is set by the first segment with its name**;
* `Query.parse_segmentQuery_congr` — **what a query sets does not change if idle segments are left
  out or segments of different names change places**.
-/

import Mathlib.Data.List.TakeWhile
import OData.Proofs.Query.Page

set_option relaxedAutoImplicit false
set_option autoImplicit false

namespace OData.Query

open Text

/-! ### Names and values -/

/-- An option is known by its name in lower case. -/
theorem SystemOption.ofName?_eq_some_iff {name : List Char} {option : SystemOption} :
    ofName? name = some option ↔ lower (trim name) = option.label := by
  constructor
  · intro h
    rw [ofName?] at h
    split at h
    · next bare hbare =>
        have hdollar : lower ('$' :: bare) = '$' :: lower bare := rfl
        simp only [sameLetters_iff] at h
        split_ifs at h with hlower hlower hlower hlower
        all_goals
          obtain rfl := Option.some.inj h
          rw [hbare, hdollar, hlower]
          rfl
    · cases h
  · intro h
    have hsame : sameLetters (trim name) option.label = true := by
      rw [sameLetters_iff, h]
      cases option <;> rfl
    rw [← ofName?_name hsame, ofName?, ofName?, trim_trim]

theorem splitOnce_eq (mark : Char) (cs : List Char) :
    splitOnce mark cs
      = if mark ∈ cs then some (cs.takeWhile (· ≠ mark), (cs.dropWhile (· ≠ mark)).tail)
        else none := by
  induction cs with
  | nil => rfl
  | cons c cs ih =>
      by_cases hc : c = mark
      · simp [splitOnce, hc]
      · by_cases hmark : mark ∈ cs <;> simp [splitOnce, ih, hc, Ne.symm hc, hmark]

/-- The name of an assignment stands before its first equals sign, and the value behind it. -/
theorem assignment_eq (piece : List Char) :
    assignment piece
      = (trim (piece.takeWhile (· ≠ '=')), trim (piece.dropWhile (· ≠ '=')).tail) := by
  by_cases hmark : '=' ∈ piece
  · rw [assignment, splitOnce_eq, if_pos hmark]
  · have hne : ∀ c ∈ piece, (decide (c ≠ '=')) = true := by
      intro c hc
      exact decide_eq_true fun heq => hmark (heq ▸ hc)
    rw [assignment, splitOnce_eq, if_neg hmark, List.takeWhile_eq_self_iff.2 hne,
      List.dropWhile_eq_nil_iff.2 hne]
    rfl

/-! ### Segments -/

/-- A text that holds together between ampersands: none of its own stands outside all parentheses,
it leaves no parenthesis open, whatever it closes, and it does not begin with a question mark. -/
structure Segment where
  text : String
  uncut : ∀ before after, text.toList = before ++ '&' :: after → depth before ≠ 0
  closed : depth text.toList = 0
  unmarked : IsUnmarked text.toList

namespace Segment

/-- What a segment names: the text before its first equals sign without the blanks around it, in
lower case. -/
def name (segment : Segment) : List Char :=
  lower (trim (segment.text.toList.takeWhile (· ≠ '=')))

/-- What a segment says: the text behind its first equals sign without the blanks around it. -/
def value (segment : Segment) : List Char :=
  trim (segment.text.toList.dropWhile (· ≠ '=')).tail

theorem pieces_text (segment : Segment) :
    pieces (· == '&') segment.text.toList = [segment.text.toList] := by
  refine pieces_eq_self_iff.2 fun before c after heq hc => ?_
  obtain rfl : c = '&' := beq_iff_eq.1 hc
  exact segment.uncut before after heq

theorem ofName?_assignment (segment : Segment) (option : SystemOption) :
    SystemOption.ofName? (assignment segment.text.toList).1 = some option ↔
      segment.name = option.label := by
  rw [SystemOption.ofName?_eq_some_iff, assignment_eq, trim_trim, name]

end Segment

/-- The query of some segments: there is an ampersand between each two. -/
def segmentQuery (segments : List Segment) : String := "&".intercalate (segments.map Segment.text)

theorem joined_segmentQuery (segments : List Segment) :
    Joined (· == '&') (segments.map (·.text.toList)) (segmentQuery segments).toList := by
  rw [segmentQuery, String.toList_intercalate, List.map_map]
  exact joined_intercalate '&' _

/-- The query of some segments does not begin with a question mark, since none of them does. -/
theorem isUnmarked_segmentQuery (segments : List Segment) :
    IsUnmarked (segmentQuery segments).toList := by
  have hjoin := joined_segmentQuery segments
  cases segments with
  | nil =>
      cases hjoin
      decide
  | cons segment rest =>
      obtain ⟨behind, heq, hseparator⟩ := hjoin.exists_eq_append
      have hfirst := segment.unmarked
      rw [IsUnmarked, head?_trim] at hfirst
      rw [IsUnmarked, heq, head?_trim, List.find?_append]
      cases hfind : segment.text.toList.find? (! isBlank ·) with
      | some c => simpa [hfind] using hfirst
      | none =>
          -- behind a blank segment there is an ampersand, or nothing
          cases behind with
          | nil => simp
          | cons c behind =>
              obtain rfl : c = '&' := by simpa using hseparator
              simp [isBlank]

theorem pieces_segmentQuery {segments : List Segment} (hne : segments ≠ []) :
    pieces (· == '&') (segmentQuery segments).toList = segments.map (·.text.toList) := by
  have hclosed : ∀ text ∈ segments.map (·.text.toList), depth text = 0 := by
    intro text htext
    obtain ⟨segment, -, rfl⟩ := List.mem_map.1 htext
    exact segment.closed
  rw [(joined_segmentQuery segments).pieces_flatMap (by simp [IsParenthesis]) (by simpa using hne)
    hclosed, List.flatMap_map]
  simp only [Segment.pieces_text]
  rw [List.map_eq_flatMap]

/-- **An option is set by the first segment with its name.** -/
theorem firstValue_segmentQuery (segments : List Segment) (option : SystemOption) :
    firstValue option (assignments (segmentQuery segments).toList)
      = (segments.find? fun segment => segment.name = option.label).map Segment.value := by
  rw [(isUnmarked_segmentQuery segments).firstValue_assignments]
  cases segments with
  | nil => cases option <;> rfl
  | cons segment rest =>
      have hvalue : ∀ s : Segment, (assignment s.text.toList).2 = s.value := fun s => by
        rw [assignment_eq, Segment.value]
      rw [pieces_segmentQuery (List.cons_ne_nil _ _), List.map_map, firstValue, List.find?_map,
        Option.map_map]
      simp only [Function.comp_def, Segment.ofName?_assignment, hvalue]

/-! ### What does not matter -/

/-- A segment that sets nothing behind some others: what it names is no option, or has been named
before. -/
def Segment.IsIdle (segment : Segment) (before : List Segment) : Prop :=
  (∀ option : SystemOption, segment.name ≠ option.label) ∨ segment.name ∈ before.map Segment.name

/-- The same segments in an order in which those of one name stand as before. -/
def Reorders (segments segments' : List Segment) : Prop :=
  ∀ name, segments.filter (·.name = name) = segments'.filter (·.name = name)

/-- Segments of different names may stand in any order. -/
theorem Reorders.of_perm {segments segments' : List Segment} (hperm : segments.Perm segments')
    (h : (segments.map Segment.name).Nodup) : Reorders segments segments' := by
  intro name
  have hsame := hperm.filter fun s : Segment => s.name = name
  have hsub : (segments.filter fun s => s.name = name).Sublist segments := List.filter_sublist
  have hdistinct := h.sublist (hsub.map Segment.name)
  -- there is at most one segment of a name
  cases hfilter : segments.filter fun s => s.name = name with
  | nil => rw [hfilter] at hsame; exact hsame.nil_eq
  | cons s others =>
      cases others with
      | nil => rw [hfilter] at hsame; exact List.singleton_perm.1 hsame
      | cons t others =>
          have hname : ∀ u ∈ s :: t :: others, u.name = name := by
            intro u hu
            have hmem : u ∈ segments.filter fun s => s.name = name := hfilter ▸ hu
            exact of_decide_eq_true (List.mem_filter.1 hmem).2
          rw [hfilter] at hdistinct
          refine absurd ?_ (List.nodup_cons.1 hdistinct).1
          rw [hname s List.mem_cons_self, ← hname t (List.mem_cons_of_mem _ List.mem_cons_self)]
          exact List.mem_cons_self

/-- Whatever finds the same first segment for each option reads the same query. -/
theorem parse_segmentQuery_eq {segments segments' : List Segment}
    (h : ∀ option : SystemOption, (segments.find? fun s => s.name = option.label)
      = segments'.find? fun s => s.name = option.label) :
    Options.parse (segmentQuery segments) = Options.parse (segmentQuery segments') := by
  simp only [Options.parse, Options.ofAssignments, firstValue_segmentQuery, h]

theorem find?_of_isIdle {before : List Segment} {segment : Segment} (h : segment.IsIdle before)
    (after : List Segment) (option : SystemOption) :
    ((before ++ segment :: after).find? fun s => s.name = option.label)
      = (before ++ after).find? fun s => s.name = option.label := by
  refine find?_append_cons (fun hname => ?_) after
  -- an option that is set here has been set by a segment in front
  have hname : segment.name = option.label := of_decide_eq_true hname
  obtain ⟨first, hfirst, hsame⟩ := List.mem_map.1 (h.resolve_left fun hnone => hnone option hname)
  exact ⟨first, hfirst, decide_eq_true (hsame.trans hname)⟩

/-- **What a query sets does not change** if a segment is left out that names no option or one that
has been named before, or if segments of different names change places. -/
theorem parse_segmentQuery_congr :
    (∀ (before : List Segment) (segment : Segment) (after : List Segment), segment.IsIdle before →
      Options.parse (segmentQuery (before ++ segment :: after))
        = Options.parse (segmentQuery (before ++ after))) ∧
    ∀ segments segments' : List Segment, Reorders segments segments' →
      Options.parse (segmentQuery segments) = Options.parse (segmentQuery segments') := by
  constructor
  · intro before segment after hidle
    exact parse_segmentQuery_eq (find?_of_isIdle hidle after)
  · intro segments segments' hreorders
    refine parse_segmentQuery_eq fun option => ?_
    rw [← List.head?_filter, hreorders option.label, List.head?_filter]

/-! ### A crowded query -/

/-- A text in one piece that closes its groups and begins with no question mark is a segment. -/
def Segment.ofPiece (text : String) (hpiece : pieces (· == '&') text.toList = [text.toList])
    (hclosed : depth text.toList = 0) (hunmarked : IsUnmarked text.toList) : Segment where
  text := text
  uncut before after heq := pieces_eq_self_iff.1 hpiece before '&' after heq rfl
  closed := hclosed
  unmarked := hunmarked

/-- Authors with an ampersand in their parentheses. -/
def authorsSegment : Segment :=
  .ofPiece "$expand=Author($skip=1&$top=2) " (by decide) (by decide) (by decide)

/-- A limit that is no number. -/
def vagueSegment : Segment := .ofPiece " $Top = ten" (by decide) (by decide) (by decide)

/-- A parenthesis that closes nothing, without a name. -/
def straySegment : Segment := .ofPiece "stray)" (by decide) (by decide) (by decide)

/-- A limit. -/
def limitSegment : Segment := .ofPiece "$top=3" (by decide) (by decide) (by decide)

theorem parse_segmentQuery_congr_crowded :
    (limitSegment.IsIdle [authorsSegment, vagueSegment] ∧
      Reorders [authorsSegment, vagueSegment, straySegment]
        [straySegment, vagueSegment, authorsSegment]) ∧
    Options.parse (segmentQuery [authorsSegment, vagueSegment, limitSegment, straySegment])
      = Options.parse (segmentQuery [authorsSegment, vagueSegment, straySegment]) ∧
    Options.parse (segmentQuery [authorsSegment, vagueSegment, straySegment])
      = Options.parse (segmentQuery [straySegment, vagueSegment, authorsSegment]) :=
  have hidle : limitSegment.IsIdle [authorsSegment, vagueSegment] := .inr (by decide)
  have hreorders : Reorders [authorsSegment, vagueSegment, straySegment]
      [straySegment, vagueSegment, authorsSegment] :=
    .of_perm (List.reverse_perm _).symm (by decide)
  ⟨⟨hidle, hreorders⟩,
    parse_segmentQuery_congr.1 [authorsSegment, vagueSegment] limitSegment [straySegment] hidle,
    parse_segmentQuery_congr.2 _ _ hreorders⟩

end OData.Query
