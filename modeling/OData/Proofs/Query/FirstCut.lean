/-
The first cut of a text.

A text either stays in one piece, or it is cut first at a separator of depth zero: what stands in
front of that separator is the first piece, and what stands behind it is cut like a text of its own.
This one step is all that cutting does, and what is true of pieces follows from it by induction: each
piece stands at depth zero, and no piece can be cut again.

* `Query.pieces_cases` — **a text in one piece, or its first cut**;
* `Query.pieces_induction` — induction on the first cut;
* `Query.exists_append_of_mem_pieces` — a piece stands at depth zero;
* `Query.pieces_eq_self_of_append` — what stands at depth zero in a text in one piece is in one piece;
* `Query.pieces_of_mem_pieces` — **a piece is in one piece**;
* `Query.isSeparator_of_notMem_group` — before its first group a text in one piece has no separator.
-/

import OData.Proofs.Query.Cut

set_option relaxedAutoImplicit false
set_option autoImplicit false

namespace OData.Query

open Text

variable {isSeparator isOther : Char → Bool}

/-! ### Depth zero -/

/-- Without an opening parenthesis nothing is open, however many closing ones there are. -/
theorem depth_eq_zero_of_notMem {cs : List Char} (h : '(' ∉ cs) : depth cs = 0 := by
  induction cs with
  | nil => rfl
  | cons c cs ih =>
      rw [List.mem_cons, not_or] at h
      have hstep : depthStep 0 c = 0 := by
        rw [depthStep, if_neg (Ne.symm h.1)]
        split <;> rfl
      rw [depth, depthFrom_cons, hstep]
      exact ih h.2

theorem depth_append {a : List Char} (ha : depth a = 0) (b : List Char) :
    depth (a ++ b) = depth b := by
  have ha : depthFrom 0 a = 0 := ha
  rw [depth, depthFrom_append, ha, depth]

/-! ### The first cut -/

/-- A text is in one piece, or it is cut first at a separator of depth zero. -/
theorem piecesFrom_cases (isSeparator : Char → Bool) (d : Nat) (cs : List Char) :
    piecesFrom isSeparator d cs = [cs] ∨
      ∃ a s b, cs = a ++ s :: b ∧ isSeparator s = true ∧ depthFrom d a = 0 ∧
        piecesFrom isSeparator d a = [a] ∧
        piecesFrom isSeparator d cs = a :: pieces isSeparator b := by
  induction cs generalizing d with
  | nil => exact .inl rfl
  | cons c cs ih =>
      by_cases hcut : (d = 0 && isSeparator c) = true
      · obtain ⟨hd, hc⟩ := Bool.and_eq_true_iff.1 hcut
        refine .inr ⟨[], c, cs, rfl, hc, of_decide_eq_true hd, rfl, ?_⟩
        rw [piecesFrom, if_pos hcut, pieces]
      · rcases ih (depthStep d c) with hself | ⟨a, s, b, rfl, hs, ha, hfirst, hpieces⟩
        · left
          rw [piecesFrom, if_neg hcut, hself, consFirst_cons]
        · refine .inr ⟨c :: a, s, b, rfl, hs, ha, ?_, ?_⟩
          · rw [piecesFrom, if_neg hcut, hfirst, consFirst_cons]
          · rw [piecesFrom, if_neg hcut, hpieces, consFirst_cons]

/-- **A text is in one piece, or it is cut first at a separator of depth zero.**  The text in front
of that separator is in one piece, and the text behind it is cut on its own. -/
theorem pieces_cases (isSeparator : Char → Bool) (cs : List Char) :
    pieces isSeparator cs = [cs] ∨
      ∃ a s b, cs = a ++ s :: b ∧ isSeparator s = true ∧ depth a = 0 ∧
        pieces isSeparator a = [a] ∧ pieces isSeparator cs = a :: pieces isSeparator b :=
  piecesFrom_cases isSeparator 0 cs

/-- Induction on the first cut. -/
@[elab_as_elim]
theorem pieces_induction (isSeparator : Char → Bool) {motive : List Char → Prop}
    (whole : ∀ cs, pieces isSeparator cs = [cs] → motive cs)
    (cut : ∀ a s b, isSeparator s = true → depth a = 0 → pieces isSeparator a = [a] →
      pieces isSeparator (a ++ s :: b) = a :: pieces isSeparator b → motive b →
        motive (a ++ s :: b))
    (cs : List Char) : motive cs := by
  rcases pieces_cases isSeparator cs with hself | ⟨a, s, b, rfl, hs, ha, hfirst, hpieces⟩
  · exact whole cs hself
  · exact cut a s b hs ha hfirst hpieces (pieces_induction isSeparator whole cut b)
termination_by cs.length
decreasing_by
  subst_vars
  rw [List.length_append, List.length_cons]
  omega

/-! ### Texts inside a text -/

/-- What stands at depth zero in a text in one piece is in one piece. -/
theorem pieces_eq_self_of_append {a m b : List Char} (ha : depth a = 0)
    (h : pieces isSeparator (a ++ (m ++ b)) = [a ++ (m ++ b)]) : pieces isSeparator m = [m] := by
  rw [pieces_eq_self_iff] at h ⊢
  rintro x c y rfl hc hx
  refine h (a ++ x) c (y ++ b) (by simp) hc ?_
  rw [depth_append ha, hx]

theorem depth_eq_zero_of_allBlank {b : List Char} (hb : AllBlank b) : depth b = 0 := by
  refine depth_eq_zero_of_notMem fun hmem => ?_
  exact not_isParenthesis_of_isBlank (hb _ hmem) (.inl rfl)

/-- A text in one piece stays so when it is trimmed. -/
theorem pieces_trim_eq_self {cs : List Char} (h : pieces isSeparator cs = [cs]) :
    pieces isSeparator (trim cs) = [trim cs] := by
  obtain ⟨a, b, ha, -, heq⟩ := exists_eq_append_trim_append cs
  refine pieces_eq_self_of_append (b := b) (depth_eq_zero_of_allBlank ha) ?_
  rwa [← heq]

/-- A text in one piece has no separator before its first group. -/
theorem isSeparator_of_notMem_group {a b : List Char}
    (h : pieces isSeparator (a ++ b) = [a ++ b]) (ha : '(' ∉ a) :
    ∀ c ∈ a, isSeparator c = false := by
  intro c hc
  obtain ⟨x, y, rfl⟩ := List.append_of_mem hc
  have hx : depth x = 0 := depth_eq_zero_of_notMem fun hmem => ha (List.mem_append_left _ hmem)
  cases hs : isSeparator c with
  | false => rfl
  | true => exact absurd hx (pieces_eq_self_iff.1 h x c (y ++ b) (by simp) hs)

/-! ### Pieces -/

section

variable (hparen : ∀ c, isSeparator c = true → ¬ IsParenthesis c)

include hparen

/-- A piece stands at depth zero. -/
theorem exists_append_of_mem_pieces {cs piece : List Char} (h : piece ∈ pieces isSeparator cs) :
    ∃ a b, cs = a ++ (piece ++ b) ∧ depth a = 0 := by
  induction cs using pieces_induction isSeparator with
  | whole cs hself =>
      rw [hself, List.mem_singleton] at h
      exact ⟨[], [], by simp [h], rfl⟩
  | cut a s b hs ha _ hpieces ih =>
      rw [hpieces] at h
      rcases List.mem_cons.1 h with rfl | h
      · exact ⟨[], s :: b, rfl, rfl⟩
      · obtain ⟨x, y, rfl, hx⟩ := ih h
        refine ⟨a ++ s :: x, y, by simp, ?_⟩
        have hstep : depthFrom 0 (s :: x) = depthFrom 0 x := by
          rw [depthFrom_cons, depthStep_eq (hparen s hs)]
        rw [depth_append ha]
        exact hstep.trans hx

/-- A piece has no separator of another kind at depth zero if the text has none. -/
theorem pieces_eq_self_of_mem_pieces {cs piece : List Char} (h : piece ∈ pieces isSeparator cs)
    (hother : pieces isOther cs = [cs]) : pieces isOther piece = [piece] := by
  obtain ⟨a, b, rfl, ha⟩ := exists_append_of_mem_pieces hparen h
  exact pieces_eq_self_of_append ha hother

end

/-- **A piece is in one piece.** -/
theorem pieces_of_mem_pieces {cs piece : List Char} (h : piece ∈ pieces isSeparator cs) :
    pieces isSeparator piece = [piece] := by
  induction cs using pieces_induction isSeparator with
  | whole cs hself =>
      rw [hself, List.mem_singleton] at h
      rw [h, hself]
  | cut a s b _ _ hfirst hpieces ih =>
      rw [hpieces] at h
      rcases List.mem_cons.1 h with rfl | h
      · exact hfirst
      · exact ih h

end OData.Query
