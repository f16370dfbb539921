/-
Cutting any text.

`OData.Proofs.Query.Joined` is about texts that were put together from balanced pieces.  This module
is about cutting a text of which nothing is known: its pieces make it up again, a separator of depth
zero cuts it into two texts that are cut on their own, and blanks at its ends only reach the first
and the last piece.

Main results:

* `Query.joined_pieces` — a text consists of its pieces with separators between them;
* `Query.pieces_eq_self_iff` — a text is in one piece if no separator stands at depth zero;
* `Query.pieces_append_separator`, `Query.Joined.pieces_flatMap` — **both sides of a separator are
  cut on their own**;
* `Query.pieces_or` — separators that a text does not have at depth zero do not matter;
* `Query.map_trim_pieces_trim` — **trimming a text does not change its trimmed pieces**.
-/

import OData.Proofs.Query.Joined
import OData.Proofs.Text.Trim

set_option relaxedAutoImplicit false
set_option autoImplicit false

namespace OData.Query

open Text

variable {isSeparator : Char → Bool}

/-- The pieces of a text are not none, so that there is a first one. -/
theorem exists_piecesFrom_eq_cons (isSeparator : Char → Bool) (d : Nat) (cs : List Char) :
    ∃ first rest, piecesFrom isSeparator d cs = first :: rest :=
  List.exists_cons_of_ne_nil (piecesFrom_ne_nil isSeparator d cs)

/-! ### A text and its pieces -/

theorem Joined.consFirst {ps : List (List Char)} {text : List Char} (h : Joined isSeparator ps text)
    (hne : ps ≠ []) (c : Char) : Joined isSeparator (consFirst c ps) (c :: text) := by
  cases h with
  | nil => exact absurd rfl hne
  | single => exact .single _
  | cons hs hrest => exact .cons hs hrest

theorem joined_piecesFrom (isSeparator : Char → Bool) (d : Nat) (cs : List Char) :
    Joined isSeparator (piecesFrom isSeparator d cs) cs := by
  induction cs generalizing d with
  | nil => exact .single []
  | cons c cs ih =>
      rw [piecesFrom]
      split
      · next hcut =>
          obtain ⟨first, rest, hpieces⟩ := exists_piecesFrom_eq_cons isSeparator 0 cs
          have hrest := ih 0
          rw [hpieces] at hrest ⊢
          exact Joined.cons (Bool.and_eq_true_iff.1 hcut).2 hrest
      · exact (ih _).consFirst (piecesFrom_ne_nil _ _ _) c

/-- A text consists of its pieces with separators between them. -/
theorem joined_pieces (isSeparator : Char → Bool) (cs : List Char) :
    Joined isSeparator (pieces isSeparator cs) cs :=
  joined_piecesFrom isSeparator 0 cs

/-- A text is its first piece, or has a separator behind it. -/
theorem Joined.exists_eq_append {first : List Char} {rest : List (List Char)} {text : List Char}
    (h : Joined isSeparator (first :: rest) text) :
    ∃ behind, text = first ++ behind ∧ ∀ c ∈ behind.head?, isSeparator c = true := by
  cases h with
  | single => exact ⟨[], by simp, by simp⟩
  | @cons s _ _ _ tail hs _ => exact ⟨s :: tail, rfl, by simpa using hs⟩

/-! ### Texts in one piece -/

/-- A text is in one piece if its first character does not cut it, and the rest is in one piece. -/
theorem piecesFrom_cons_eq_self_iff {c : Char} {cs : List Char} {d : Nat} :
    piecesFrom isSeparator d (c :: cs) = [c :: cs] ↔
      ¬ (d = 0 && isSeparator c) = true ∧ piecesFrom isSeparator (depthStep d c) cs = [cs] := by
  rw [piecesFrom]
  by_cases hcut : (d = 0 && isSeparator c) = true
  · simp [hcut]
  · obtain ⟨first, rest, hpieces⟩ := exists_piecesFrom_eq_cons isSeparator (depthStep d c) cs
    simp [hcut, hpieces]

theorem piecesFrom_eq_self_iff {d : Nat} {cs : List Char} :
    piecesFrom isSeparator d cs = [cs] ↔
      ∀ a c b, cs = a ++ c :: b → isSeparator c = true → depthFrom d a ≠ 0 := by
  induction cs generalizing d with
  | nil => simp [piecesFrom]
  | cons x cs ih =>
      -- either the first character is the separator of depth zero, or a later one is
      have hfirst : (∀ a c b, x :: cs = a ++ c :: b → isSeparator c = true → depthFrom d a ≠ 0) ↔
          ¬ (d = 0 && isSeparator x) = true ∧
            ∀ a c b, cs = a ++ c :: b → isSeparator c = true → depthFrom (depthStep d x) a ≠ 0 := by
        constructor
        · intro h
          refine ⟨fun hcut => ?_, fun a c b heq hc => ?_⟩
          · obtain ⟨hd, hx⟩ := Bool.and_eq_true_iff.1 hcut
            exact h [] x cs rfl hx (of_decide_eq_true hd)
          · exact h (x :: a) c b (by rw [heq, List.cons_append]) hc
        · rintro ⟨hcut, hrest⟩ a c b heq hc
          cases a with
          | nil =>
              obtain ⟨rfl, -⟩ := List.cons.inj heq
              intro hd
              have hd : d = 0 := hd
              exact hcut (by simp [hd, hc])
          | cons y a =>
              obtain ⟨rfl, htail⟩ := List.cons.inj heq
              exact hrest a c b htail hc
      rw [hfirst, ← ih, piecesFrom_cons_eq_self_iff]

/-- A text is in one piece if none of its separators stands at depth zero. -/
theorem pieces_eq_self_iff {cs : List Char} :
    pieces isSeparator cs = [cs] ↔
      ∀ a c b, cs = a ++ c :: b → isSeparator c = true → depth a ≠ 0 :=
  piecesFrom_eq_self_iff

/-! ### Cutting at a separator -/

theorem depthStep_eq {c : Char} (hc : ¬ IsParenthesis c) (d : Nat) : depthStep d c = d := by
  simp only [IsParenthesis, not_or] at hc
  simp [depthStep, hc]

section

variable (hparen : ∀ c, isSeparator c = true → ¬ IsParenthesis c)

include hparen

theorem piecesFrom_append_separator {s : Char} (hs : isSeparator s = true) {d : Nat}
    {a : List Char} (ha : depthFrom d a = 0) (b : List Char) :
    piecesFrom isSeparator d (a ++ s :: b)
      = piecesFrom isSeparator d a ++ pieces isSeparator b := by
  induction a generalizing d with
  | nil =>
      obtain rfl : d = 0 := ha
      simp [piecesFrom, pieces, hs]
  | cons c a ih =>
      rw [depthFrom_cons] at ha
      rw [List.cons_append, piecesFrom, piecesFrom]
      split
      · next hcut =>
          -- a separator opens and closes no group, so that the depth is still zero behind it
          obtain ⟨hd, hc⟩ := Bool.and_eq_true_iff.1 hcut
          rw [depthStep_eq (hparen c hc), of_decide_eq_true hd] at ha
          rw [ih ha, List.cons_append]
      · obtain ⟨first, rest, hpieces⟩ := exists_piecesFrom_eq_cons isSeparator (depthStep d c) a
        rw [ih ha, hpieces, List.cons_append, consFirst_cons, consFirst_cons, List.cons_append]

/-- **Both sides of a separator of depth zero are cut on their own.** -/
theorem pieces_append_separator {s : Char} (hs : isSeparator s = true) {a : List Char}
    (ha : depth a = 0) (b : List Char) :
    pieces isSeparator (a ++ s :: b) = pieces isSeparator a ++ pieces isSeparator b :=
  piecesFrom_append_separator hparen hs ha b

/-- Texts that leave no group open are cut each on its own between separators. -/
theorem Joined.pieces_flatMap {ps : List (List Char)} {text : List Char}
    (h : Joined isSeparator ps text) (hne : ps ≠ []) (hps : ∀ p ∈ ps, depth p = 0) :
    pieces isSeparator text = ps.flatMap (pieces isSeparator) := by
  induction h with
  | nil => exact absurd rfl hne
  | single piece => simp
  | cons hs _ ih =>
      have hrest := ih (List.cons_ne_nil _ _) fun p hp => hps p (List.mem_cons_of_mem _ hp)
      rw [pieces_append_separator hparen hs (hps _ List.mem_cons_self), hrest]
      rfl

theorem piecesFrom_or {isOther : Char → Bool} {d : Nat} {cs : List Char}
    (h : piecesFrom isOther d cs = [cs]) :
    piecesFrom (fun c => isSeparator c || isOther c) d cs = piecesFrom isSeparator d cs := by
  induction cs generalizing d with
  | nil => rfl
  | cons c cs ih =>
      obtain ⟨hother, hrest⟩ := piecesFrom_cons_eq_self_iff.1 h
      rw [piecesFrom, piecesFrom]
      by_cases hcut : (d = 0 && isSeparator c) = true
      · obtain ⟨hd, hc⟩ := Bool.and_eq_true_iff.1 hcut
        rw [depthStep_eq (hparen c hc), of_decide_eq_true hd] at hrest
        have hboth : (d = 0 && (isSeparator c || isOther c)) = true := by simp [hd, hc]
        rw [if_pos hcut, if_pos hboth, ih hrest]
      · have hboth : ¬ (d = 0 && (isSeparator c || isOther c)) = true := by
          intro hboth
          obtain ⟨hd, hc⟩ := Bool.and_eq_true_iff.1 hboth
          rcases Bool.or_eq_true_iff.1 hc with hc | hc
          · exact hcut (Bool.and_eq_true_iff.2 ⟨hd, hc⟩)
          · exact hother (Bool.and_eq_true_iff.2 ⟨hd, hc⟩)
        rw [if_neg hcut, if_neg hboth, ih hrest]

/-- Separators that a text does not have at depth zero do not matter. -/
theorem pieces_or {isOther : Char → Bool} {cs : List Char} (h : pieces isOther cs = [cs]) :
    pieces (fun c => isSeparator c || isOther c) cs = pieces isSeparator cs :=
  piecesFrom_or hparen h

end

/-! ### Blanks at the ends -/

/-- A text without separators in front reaches the first piece. -/
theorem pieces_append_left {b : List Char} (hb : IsWhole isSeparator b) (cs : List Char) :
    pieces isSeparator (b ++ cs) = b.foldr consFirst (pieces isSeparator cs) := by
  rw [pieces, piecesFrom_append hb.pieces_eq, hb.balanced.depthFrom_eq 0]
  rfl

/-- A text without separators at the end reaches the last piece. -/
theorem exists_piecesFrom_append {b : List Char} (hb : ∀ c ∈ b, isSeparator c = false) (d : Nat)
    (cs : List Char) : ∃ front last, piecesFrom isSeparator d cs = front ++ [last] ∧
      piecesFrom isSeparator d (cs ++ b) = front ++ [last ++ b] := by
  induction cs generalizing d with
  | nil => exact ⟨[], [], rfl, piecesFrom_of_forall hb d⟩
  | cons c cs ih =>
      rw [List.cons_append, piecesFrom, piecesFrom]
      split
      · obtain ⟨front, last, hcs, hcsb⟩ := ih 0
        exact ⟨[] :: front, last, by rw [hcs]; rfl, by rw [hcsb]; rfl⟩
      · obtain ⟨front, last, hcs, hcsb⟩ := ih (depthStep d c)
        rw [hcs, hcsb]
        cases front with
        | nil => exact ⟨[], c :: last, rfl, rfl⟩
        | cons first front => exact ⟨(c :: first) :: front, last, rfl, rfl⟩

theorem not_isParenthesis_of_isBlank {c : Char} (h : isBlank c = true) : ¬ IsParenthesis c := by
  rintro (rfl | rfl) <;> exact absurd h (by decide)

section

variable (hblank : ∀ c, isSeparator c = true → isBlank c = false)

include hblank

theorem isSeparator_of_isBlank {c : Char} (h : isBlank c = true) : isSeparator c = false := by
  cases hs : isSeparator c with
  | false => rfl
  | true => simp [hblank c hs] at h

theorem isWhole_of_allBlank {b : List Char} (hb : AllBlank b) : IsWhole isSeparator b :=
  .of_forall (fun c hc => not_isParenthesis_of_isBlank (hb c hc))
    fun c hc => isSeparator_of_isBlank hblank (hb c hc)

/-- **Trimming a text does not change its trimmed pieces.** -/
theorem map_trim_pieces_trim (cs : List Char) :
    (pieces isSeparator (trim cs)).map trim = (pieces isSeparator cs).map trim := by
  obtain ⟨a, b, ha, hb, heq⟩ := exists_eq_append_trim_append cs
  generalize trim cs = m at heq ⊢
  subst heq
  have hwhole : IsWhole isSeparator a := isWhole_of_allBlank hblank ha
  have hplain : ∀ c ∈ b, isSeparator c = false :=
    fun c hc => isSeparator_of_isBlank hblank (hb c hc)
  obtain ⟨front, last, hm, hmb⟩ := exists_piecesFrom_append hplain 0 m
  have hlast : trim (last ++ b) = trim last := hb.trim_append last
  have hright : (pieces isSeparator (m ++ b)).map trim = (pieces isSeparator m).map trim := by
    rw [pieces, pieces, hm, hmb, List.map_append, List.map_append, List.map_singleton,
      List.map_singleton, hlast]
  obtain ⟨first, rest, hfirst⟩ := exists_piecesFrom_eq_cons isSeparator 0 (m ++ b)
  have hfirst : pieces isSeparator (m ++ b) = first :: rest := hfirst
  rw [pieces_append_left hwhole, ← hright, hfirst, foldr_consFirst_cons, List.map_cons,
    List.map_cons, ha.trim_append_left]

end

end OData.Query
