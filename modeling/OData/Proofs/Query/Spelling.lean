/-
Spellings that are read alike.

An option is named by a dollar sign and letters of either case, so that a name has none of the
characters with a meaning in it.  Values are trimmed by whoever reads them, and what stands behind
the first comma of a count is never read.

* `Query.SystemOption.ofName?_name` — a name in letters of either case names its option;
* `Query.assignment_trim`, `Query.readCount_trim`, `Query.readTerm_trim` — blanks around what is
  read do not matter;
* `Query.readExpand_trim`, `Query.readSelect_trim` — what is read of a list depends on its trimmed
  parts only;
* `Query.readCount_of_pieces` — **a count stands in front of the first comma**.
-/

import OData.Proofs.Query.Cut
import OData.Proofs.Query.RoundTrip
import OData.Proofs.Text.Letter

set_option relaxedAutoImplicit false
set_option autoImplicit false

namespace OData

namespace Query

open Text

/-! ### Names in letters of either case -/

/-- A name of an option is a dollar sign and letters. -/
theorem SystemOption.eq_dollar_or_isAlpha {option : SystemOption} {name : List Char}
    (h : sameLetters name option.label = true) {c : Char} (hc : c ∈ name) :
    c = '$' ∨ c.isAlpha = true := by
  have hmem : c.toLower ∈ lower option.label :=
    sameLetters_iff.1 h ▸ List.mem_map_of_mem hc
  have hall : ((lower option.label).all fun c => c == '$' || c.isAlpha) = true := by
    cases option <;> decide
  rcases Bool.or_eq_true_iff.1 (List.all_eq_true.1 hall _ hmem) with hdollar | halpha
  · exact .inl (eq_of_toLower_eq rfl (beq_iff_eq.1 hdollar))
  · exact .inr (by rwa [← isAlpha_toLower])

theorem SystemOption.not_mem_name {option : SystemOption} {name : List Char}
    (h : sameLetters name option.label = true) {c : Char} (hdollar : c ≠ '$')
    (halpha : c.isAlpha = false) : c ∉ name := by
  intro hc
  rcases eq_dollar_or_isAlpha h hc with hc | hc
  · exact hdollar hc
  · rw [halpha] at hc
    cases hc

theorem SystemOption.isBlank_name {option : SystemOption} {name : List Char}
    (h : sameLetters name option.label = true) : ∀ c ∈ name, isBlank c = false := by
  intro c hc
  rcases eq_dollar_or_isAlpha h hc with rfl | hc
  · rfl
  · exact isBlank_of_isAlpha hc

theorem SystemOption.head?_name {option : SystemOption} {name : List Char}
    (h : sameLetters name option.label = true) : name.head? = some '$' := by
  have hhead : (lower name).head? = some '$' := by
    rw [sameLetters_iff.1 h]
    cases option <;> rfl
  cases name with
  | nil => cases hhead
  | cons c name =>
      have hc : c.toLower = '$' := by simpa [lower] using hhead
      rw [eq_of_toLower_eq rfl hc, List.head?_cons]

/-- The case of letters does not matter. -/
theorem SystemOption.ofName?_congr {a b : List Char} (ha : a.head? = some '$')
    (hb : b.head? = some '$') (htrima : trim a = a) (htrimb : trim b = b)
    (h : sameLetters a b = true) : ofName? a = ofName? b := by
  cases a with
  | nil => cases ha
  | cons c a =>
      cases b with
      | nil => cases hb
      | cons d b =>
          obtain rfl : c = '$' := by simpa using ha
          obtain rfl : d = '$' := by simpa using hb
          have hrest : lower a = lower b := by
            have := sameLetters_iff.1 h
            simpa [lower] using this
          have hsame : ∀ word, sameLetters a word = sameLetters b word := by
            intro word
            rw [sameLetters, hrest, sameLetters]
          simp only [ofName?, htrima, htrimb, hsame]

theorem SystemOption.ofName?_name {option : SystemOption} {name : List Char}
    (h : sameLetters name option.label = true) : ofName? name = some option := by
  have htrim : trim name = name := (isTrimmed_of_forall (isBlank_name h)).trim_eq
  rw [ofName?_congr (head?_name h) (by cases option <;> rfl) htrim option.isTrimmed_label.trim_eq h,
    ofName?_label]

/-! ### Values with blanks around them -/

theorem splitOnce_trim {mark : Char} (hmark : isBlank mark = false) (cs : List Char) :
    (splitOnce mark cs).map (fun parts => (trim parts.1, trim parts.2))
      = (splitOnce mark (trim cs)).map fun parts => (trim parts.1, trim parts.2) := by
  obtain ⟨a, b, ha, hb, heq⟩ := exists_eq_append_trim_append cs
  have hnot : ∀ {blanks : List Char}, AllBlank blanks → mark ∉ blanks := by
    intro blanks hblanks hmem
    have := hblanks mark hmem
    rw [hmark] at this
    cases this
  generalize trim cs = m at heq ⊢
  subst heq
  cases hm : splitOnce mark m with
  | none =>
      have hnone : mark ∉ a ++ (m ++ b) := by
        simp only [List.mem_append, not_or]
        exact ⟨hnot ha, notMem_of_splitOnce_eq_none hm, hnot hb⟩
      rw [splitOnce_eq_none hnone]
  | some parts =>
      obtain ⟨before, after⟩ := parts
      have hbefore : mark ∉ a ++ before := by
        rw [List.mem_append, not_or]
        exact ⟨hnot ha, notMem_of_splitOnce hm⟩
      have htext : a ++ (m ++ b) = (a ++ before) ++ mark :: (after ++ b) := by
        rw [eq_append_of_splitOnce hm]
        simp
      rw [htext, splitOnce_append hbefore]
      simp [ha.trim_append_left, hb.trim_append]

theorem assignment_trim (piece : List Char) : assignment (trim piece) = assignment piece := by
  have h := @splitOnce_trim '=' rfl piece
  rw [assignment, assignment]
  cases hp : splitOnce '=' piece with
  | none =>
      rw [hp, Option.map_none, eq_comm, Option.map_eq_none_iff] at h
      rw [h]
      simp [trim_trim]
  | some parts =>
      rw [hp, Option.map_some, eq_comm, Option.map_eq_some_iff] at h
      obtain ⟨parts', hparts', heq⟩ := h
      rw [hparts']
      exact heq

@[simp] theorem readCount_trim (value : List Char) : readCount (trim value) = readCount value := by
  simp [readCount, trim_trim]

@[simp] theorem readLimit_trim (value : List Char) : readLimit (trim value) = readLimit value := by
  simp [readLimit]

@[simp] theorem readTerm_trim (term : List Char) : readTerm (trim term) = readTerm term := by
  simp [readTerm, trim_trim]

theorem readTerms_map_trim (terms : List (List Char)) :
    readTerms (terms.map trim) = readTerms terms := by
  have hsame : readTerm ∘ trim = readTerm := funext readTerm_trim
  rw [readTerms, List.filterMap_map, hsame, readTerms]

theorem readExpand_trim (value : List Char) :
    readExpand (trim value) = readTerms ((pieces (· == ',') value).map trim) := by
  have hcomma : ∀ c, (c == ',') = true → isBlank c = false := by simp; rfl
  rw [readExpand, ← readTerms_map_trim, map_trim_pieces_trim hcomma]

theorem readSelect_trim (value : List Char) :
    readSelect (trim value)
      = (((pieces (· == ',') value).map trim).filter (! ·.isEmpty)).map String.ofList := by
  have hcomma : ∀ c, (c == ',') = true → isBlank c = false := by simp; rfl
  rw [readSelect, map_trim_pieces_trim hcomma]
  generalize (pieces (· == ',') value).map trim = paths
  induction paths with
  | nil => rfl
  | cons path paths ih =>
      cases path with
      | nil => exact ih
      | cons c path => exact congrArg (String.ofList (c :: path) :: ·) ih

/-- Blanks at the end do not matter for the digits that a text starts with. -/
theorem takeWhile_isDigit_trim (cs : List Char) :
    (trim cs).takeWhile Char.isDigit = (trimStart cs).takeWhile Char.isDigit := by
  obtain ⟨b, hb, hcs⟩ := exists_eq_trimEnd_append (trimStart cs)
  have hhead : ∀ c ∈ b.head?, c.isDigit = false := by
    intro c hc
    have hblank := hb c (List.mem_of_mem_head? hc)
    cases hdigit : c.isDigit with
    | false => rfl
    | true =>
        rw [isBlank_of_isDigit hdigit] at hblank
        cases hblank
  rw [hcs, takeWhile_append_of_head hhead]
  rfl

/-- The digits that a text starts with stand before its first comma. -/
theorem readCount_of_pieces {value first : List Char} {rest : List (List Char)}
    (h : pieces (· == ',') value = first :: rest) : readCount first = readCount value := by
  have hjoin := joined_pieces (· == ',') value
  rw [h] at hjoin
  obtain ⟨behind, heq, hcomma⟩ := hjoin.exists_eq_append
  -- a comma is neither a blank nor a digit
  have hsame : (trimStart value).takeWhile Char.isDigit
      = (trimStart first).takeWhile Char.isDigit := by
    have hbehind : ∀ c ∈ behind.head?, isBlank c = false ∧ c.isDigit = false := by
      intro c hc
      obtain rfl : c = ',' := by simpa using hcomma c hc
      exact ⟨rfl, rfl⟩
    rw [heq, trimStart, List.dropWhile_append]
    by_cases hfirst : (first.dropWhile isBlank).isEmpty = true
    · -- a blank part in front of the comma has no digits, and the comma is none
      rw [if_pos hfirst, trimStart, List.isEmpty_iff.1 hfirst]
      cases behind with
      | nil => rfl
      | cons c behind =>
          obtain ⟨hblank, hdigit⟩ := hbehind c rfl
          rw [List.dropWhile_cons_of_neg (by simp [hblank]),
            List.takeWhile_cons_of_neg (by simp [hdigit]), List.takeWhile_nil]
    · rw [if_neg hfirst, takeWhile_append_of_head fun c hc => (hbehind c hc).2]
      rfl
  simp only [readCount, takeWhile_isDigit_trim, hsame]

end Query

end OData
