/-
The values of query options.

Reading is total: whatever cannot be understood counts as absent.  A count is the run of digits that
a text starts with; a list is cut at the commas outside all parentheses, and what is blank in it is
left out.

* `Query.readCount`, `Query.readLimit` — the values of `$skip` and `$top`;
* `Query.readTerm`, `Query.readTerms`, `Query.readExpand` — terms of `$expand`; a relationship that
  occurs twice keeps its first place and takes its last text;
* `Query.readSelect` — the paths of `$select`;
* `Query.length_subQuery_lt_of_readTerm` — the text in a term's parentheses is shorter than the
  term.
-/

import OData.Query.Options
import OData.Query.Pieces

set_option relaxedAutoImplicit false
set_option autoImplicit false

namespace OData.Query

open Text

/-- The number of distinct counts: a count is a 64-bit word. -/
def countLimit : Nat := Nat.pow 2 64

/-- The value of a run of decimal digits. -/
def digitsValue (digits : List Char) : Nat :=
  digits.foldl (fun n c => 10 * n + (c.toNat - '0'.toNat)) 0

/-- The number that the leading digits of a trimmed text write, if there are any and the number fits
a 64-bit word. -/
def readCount (value : List Char) : Option Nat :=
  let digits := (trim value).takeWhile Char.isDigit
  if digits.isEmpty then none
  else if digitsValue digits < countLimit then some (digitsValue digits) else none

/-- The limit that a value of `$top` sets; a limit of zero is none. -/
def readLimit (value : List Char) : Option Nat := (readCount value).filter (0 < ·)

/-- One term of `$expand`: a name, and the content of the parentheses after it.  A term without a
name is none. -/
def readTerm (term : List Char) : Option ExpandItem :=
  let parts := (splitOnce '(' (trim term)).getD (trim term, [])
  let name := trim parts.1
  if name.isEmpty then none
  else some ⟨String.ofList name, String.ofList (trim (groupContent parts.2))⟩

/-- Adds a term.  A relationship that is already there keeps its place and takes the later text. -/
def mergeItem (item : ExpandItem) : List ExpandItem → List ExpandItem
  | [] => [item]
  | other :: rest => if other.name = item.name then item :: rest else other :: mergeItem item rest

/-- The items of several terms, each relationship once. -/
def readTerms (terms : List (List Char)) : List ExpandItem :=
  (terms.filterMap readTerm).foldl (fun items item => mergeItem item items) []

/-- The value of `$expand`: terms between commas. -/
def readExpand (value : List Char) : List ExpandItem := readTerms (pieces (· == ',') value)

/-- The value of `$select`: paths between commas, less the blank ones. -/
def readSelect (value : List Char) : List String :=
  ((pieces (· == ',') value).map trim).filterMap fun path =>
    if path.isEmpty then none else some (String.ofList path)

/-! ### Terms contain their parentheses -/

theorem length_subQuery_lt_of_readTerm {term : List Char} {item : ExpandItem}
    (h : readTerm term = some item) : item.subQuery.length < term.length := by
  unfold readTerm at h
  simp only at h
  split at h
  · simp at h
  · rename_i hname
    simp only [Option.some.injEq] at h
    subst h
    have hterm := (sublist_trim term).length_le
    cases hs : splitOnce '(' (trim term) with
    | none =>
      simp only [hs, Option.getD_none] at hname ⊢
      have hpos : 0 < (trim (trim term)).length := by
        cases hc : trim (trim term) with
        | nil => simp [hc] at hname
        | cons => simp
      have := (sublist_trim (trim term)).length_le
      have hnil : trim (groupContent []) = [] := rfl
      simp [hnil]
      omega
    | some parts =>
      obtain ⟨before, after⟩ := parts
      have hafter := length_after_lt_of_splitOnce hs
      have hgroup := (sublist_groupContent after).length_le
      have htrim := (sublist_trim (groupContent after)).length_le
      simp only [Option.getD_some, String.length_ofList]
      omega

theorem mem_of_mem_mergeItem {item other : ExpandItem} {items : List ExpandItem}
    (h : other ∈ mergeItem item items) : other = item ∨ other ∈ items := by
  induction items with
  | nil => simpa [mergeItem] using h
  | cons first rest ih =>
    unfold mergeItem at h
    split at h
    · rcases List.mem_cons.1 h with rfl | h
      · exact .inl rfl
      · exact .inr (List.mem_cons_of_mem _ h)
    · rcases List.mem_cons.1 h with rfl | h
      · exact .inr List.mem_cons_self
      · exact (ih h).imp id (List.mem_cons_of_mem _)

theorem mem_of_mem_foldl_mergeItem {item : ExpandItem} {new items : List ExpandItem}
    (h : item ∈ new.foldl (fun items item => mergeItem item items) items) :
    item ∈ new ∨ item ∈ items := by
  induction new generalizing items with
  | nil => exact .inr h
  | cons first rest ih =>
    rcases ih h with h | h
    · exact .inl (List.mem_cons_of_mem _ h)
    · rcases mem_of_mem_mergeItem h with rfl | h
      · exact .inl List.mem_cons_self
      · exact .inr h

/-- Every item that is read comes from one of the terms. -/
theorem exists_readTerm_of_mem_readTerms {item : ExpandItem} {terms : List (List Char)}
    (h : item ∈ readTerms terms) : ∃ term ∈ terms, readTerm term = some item := by
  rcases mem_of_mem_foldl_mergeItem h with h | h
  · exact List.mem_filterMap.1 h
  · simp at h

end OData.Query
