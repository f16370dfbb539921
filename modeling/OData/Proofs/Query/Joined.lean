/-
Texts made of pieces, and how they are cut again.

`OData.Query.pieces` cuts a text at the separators that stand outside all parentheses.  This module
describes the texts that it takes apart as they were put together: pieces with separators between
them, each piece balanced and without a separator of its own at depth zero.

Main definitions:

* `Query.Balanced` — a text that closes its groups and a number of groups opened before it;
* `Query.Joined` — a text that consists of some pieces with separators between them;
* `Query.IsWhole` — a balanced text without a separator of depth zero.

Main results:

* `Query.pieces_of_joined` — **joined pieces are cut where they were joined**;
* `Query.isBalancedFrom_iff` — the checker of balanced texts is right;
* `Query.Balanced.groupContent_append` — a group ends at the parenthesis that closes it;
* `Query.IsWhole.group` — a name and a balanced text in parentheses hold together.
-/

import OData.Query.Pieces
import OData.Text.Blank

set_option relaxedAutoImplicit false
set_option autoImplicit false

namespace OData.Query

/-! ### Balanced texts -/

/-- Whether a character opens or closes a group. -/
def IsParenthesis (c : Char) : Prop := c = '(' ∨ c = ')'

/-- A text that closes `k` groups opened before it and every group of its own. -/
inductive Balanced : Nat → List Char → Prop
  | nil : Balanced 0 []
  | opening {k : Nat} {cs : List Char} : Balanced (k + 1) cs → Balanced k ('(' :: cs)
  | closing {k : Nat} {cs : List Char} : Balanced k cs → Balanced (k + 1) (')' :: cs)
  | plain {k : Nat} {c : Char} {cs : List Char} :
      ¬ IsParenthesis c → Balanced k cs → Balanced k (c :: cs)

/-- The checker of balanced texts is right. -/
theorem isBalancedFrom_iff {k : Nat} {cs : List Char} :
    isBalancedFrom k cs = true ↔ Balanced k cs := by
  constructor
  · intro h
    -- the number of open groups changes along the text
    induction cs generalizing k with
    | nil =>
        obtain rfl : k = 0 := by simpa [isBalancedFrom] using h
        exact .nil
    | cons c cs ih =>
        unfold isBalancedFrom at h
        split at h
        · subst c
          exact .opening (ih h)
        · split at h
          · subst c
            cases k with
            | zero => simp at h
            | succ k => exact .closing (ih h)
          · rename_i hopen hclose
            exact .plain (by simp [IsParenthesis, hopen, hclose]) (ih h)
  · intro h
    induction h with
    | nil => rfl
    | opening _ ih => simpa [isBalancedFrom] using ih
    | closing _ ih => simpa [isBalancedFrom] using ih
    | plain hc _ ih =>
        simp only [IsParenthesis, not_or] at hc
        simpa [isBalancedFrom, hc] using ih

instance (k : Nat) (cs : List Char) : Decidable (Balanced k cs) :=
  decidable_of_iff _ isBalancedFrom_iff

namespace Balanced

theorem of_forall {cs : List Char} (h : ∀ c ∈ cs, ¬ IsParenthesis c) : Balanced 0 cs := by
  induction cs with
  | nil => exact .nil
  | cons c cs ih =>
      exact .plain (h c List.mem_cons_self) (ih fun c' hc' => h c' (List.mem_cons_of_mem _ hc'))

/-- What is balanced behind a balanced text is balanced with it. -/
theorem append {k d : Nat} {a b : List Char} (ha : Balanced k a) (hb : Balanced d b) :
    Balanced (k + d) (a ++ b) := by
  induction ha with
  | nil => simpa using hb
  | opening _ ih => exact .opening (by rwa [Nat.add_right_comm] at ih)
  | closing _ ih =>
      rw [Nat.add_right_comm]
      exact .closing ih
  | plain hc _ ih => exact .plain hc ih

theorem group {cs : List Char} (h : Balanced 0 cs) : Balanced 0 ('(' :: (cs ++ [')'])) :=
  .opening (by simpa using h.append (.closing .nil))

theorem depthFrom_eq {k : Nat} {cs : List Char} (h : Balanced k cs) (d : Nat) :
    depthFrom (k + d) cs = d := by
  induction h with
  | nil => simp
  | opening _ ih => simpa [depthStep, Nat.add_right_comm] using ih
  | @closing k cs _ ih =>
      have hstep : depthStep (k + 1 + d) ')' = k + d := by simp [depthStep, Nat.add_right_comm]
      rw [depthFrom_cons, hstep, ih]
  | plain hc _ ih =>
      simp only [IsParenthesis, not_or] at hc
      simpa [depthStep, hc] using ih

theorem depth_eq {cs : List Char} (h : Balanced 0 cs) : depth cs = 0 := h.depthFrom_eq 0

/-- Inside a group a balanced text is content, and the group goes on behind it. -/
theorem groupContentFrom_append {k : Nat} {a : List Char} (h : Balanced k a) (d : Nat)
    (b : List Char) : groupContentFrom (k + d) (a ++ b) = a ++ groupContentFrom d b := by
  induction h with
  | nil => simp
  | opening _ ih =>
      rw [Nat.add_right_comm] at ih
      simp [groupContentFrom, ih]
  | closing _ ih => simp [Nat.add_right_comm, groupContentFrom, ih]
  | plain hc _ ih =>
      simp only [IsParenthesis, not_or] at hc
      simp [groupContentFrom, hc, ih]

/-- A group ends at the parenthesis that closes it. -/
theorem groupContent_append {a : List Char} (h : Balanced 0 a) (b : List Char) :
    groupContent (a ++ ')' :: b) = a := by
  have := h.groupContentFrom_append 0 (')' :: b)
  simpa [groupContent, groupContentFrom] using this

end Balanced

/-! ### Cutting an appended text -/

theorem foldr_consFirst_cons (a piece : List Char) (rest : List (List Char)) :
    a.foldr consFirst (piece :: rest) = (a ++ piece) :: rest := by
  induction a with
  | nil => rfl
  | cons c a ih => rw [List.foldr_cons, ih, consFirst_cons, List.cons_append]

section

variable {isSeparator : Char → Bool}

/-- A text that is one piece comes in front of the first piece of what follows it. -/
theorem piecesFrom_append {d : Nat} {a : List Char} (h : piecesFrom isSeparator d a = [a])
    (b : List Char) :
    piecesFrom isSeparator d (a ++ b)
      = a.foldr consFirst (piecesFrom isSeparator (depthFrom d a) b) := by
  induction a generalizing d with
  | nil => rfl
  | cons c a ih =>
      unfold piecesFrom at h
      rw [List.cons_append, piecesFrom]
      split at h
      · simp at h
      · rw [if_neg ‹_›, List.foldr_cons, depthFrom_cons, ih]
        -- the tail is one piece as well, since the head was put in front of its first piece
        cases hp : piecesFrom isSeparator (depthStep d c) a with
        | nil => exact absurd hp (piecesFrom_ne_nil _ _ _)
        | cons piece rest => simpa [hp] using h

/-- Two texts that are one piece each are one piece together. -/
theorem piecesFrom_append_self {d : Nat} {a b : List Char}
    (ha : piecesFrom isSeparator d a = [a])
    (hb : piecesFrom isSeparator (depthFrom d a) b = [b]) :
    piecesFrom isSeparator d (a ++ b) = [a ++ b] := by
  rw [piecesFrom_append ha, hb, foldr_consFirst_cons]

/-- A text without separators is one piece. -/
theorem piecesFrom_of_forall {a : List Char} (h : ∀ c ∈ a, isSeparator c = false) (d : Nat) :
    piecesFrom isSeparator d a = [a] := by
  induction a generalizing d with
  | nil => rfl
  | cons c a ih =>
      have hc := h c List.mem_cons_self
      rw [piecesFrom, if_neg (by simp [hc]),
        ih (fun c' hc' => h c' (List.mem_cons_of_mem _ hc')), consFirst_cons]

/-- Inside a group a balanced text is never cut. -/
theorem Balanced.piecesFrom_eq {k : Nat} {cs : List Char} (h : Balanced k cs) (d : Nat) :
    piecesFrom isSeparator (k + d + 1) cs = [cs] := by
  induction h with
  | nil => rfl
  | @opening k cs _ ih =>
      have hstep : depthStep (k + d + 1) '(' = k + 1 + d + 1 := by simp [depthStep]; omega
      rw [piecesFrom, if_neg (by simp), hstep, ih, consFirst_cons]
  | @closing k cs _ ih =>
      have hstep : depthStep (k + 1 + d + 1) ')' = k + d + 1 := by simp [depthStep]; omega
      rw [piecesFrom, if_neg (by simp), hstep, ih, consFirst_cons]
  | @plain k c cs hc _ ih =>
      have hstep : depthStep (k + d + 1) c = k + d + 1 := by
        simp only [IsParenthesis, not_or] at hc
        simp [depthStep, hc]
      rw [piecesFrom, if_neg (by simp), hstep, ih, consFirst_cons]

/-- A text in one piece stays in one piece if there are fewer separators. -/
theorem piecesFrom_eq_self_mono {isSeparator' : Char → Bool}
    (hsub : ∀ c, isSeparator' c = true → isSeparator c = true) {d : Nat} {a : List Char}
    (h : piecesFrom isSeparator d a = [a]) : piecesFrom isSeparator' d a = [a] := by
  induction a generalizing d with
  | nil => rfl
  | cons c a ih =>
      unfold piecesFrom at h
      split at h
      · simp at h
      · rename_i hc
        have hc' : ¬ (d = 0 && isSeparator' c) = true := by
          intro hc'
          simp only [Bool.and_eq_true] at hc hc'
          exact hc ⟨hc'.1, hsub c hc'.2⟩
        have hrest : piecesFrom isSeparator (depthStep d c) a = [a] := by
          cases hp : piecesFrom isSeparator (depthStep d c) a with
          | nil => exact absurd hp (piecesFrom_ne_nil _ _ _)
          | cons piece rest => simpa [hp] using h
        rw [piecesFrom, if_neg hc', ih hrest, consFirst_cons]

end

/-! ### Texts in one piece -/

/-- A balanced text without a separator of depth zero. -/
structure IsWhole (isSeparator : Char → Bool) (cs : List Char) : Prop where
  balanced : Balanced 0 cs
  pieces_eq : pieces isSeparator cs = [cs]

instance (isSeparator : Char → Bool) (cs : List Char) : Decidable (IsWhole isSeparator cs) :=
  decidable_of_iff (Balanced 0 cs ∧ pieces isSeparator cs = [cs])
    ⟨fun h => ⟨h.1, h.2⟩, fun h => ⟨h.balanced, h.pieces_eq⟩⟩

namespace IsWhole

variable {isSeparator : Char → Bool}

theorem of_forall {cs : List Char} (hparen : ∀ c ∈ cs, ¬ IsParenthesis c)
    (hsep : ∀ c ∈ cs, isSeparator c = false) : IsWhole isSeparator cs :=
  ⟨.of_forall hparen, piecesFrom_of_forall hsep 0⟩

theorem mono {isSeparator' : Char → Bool} {cs : List Char} (h : IsWhole isSeparator cs)
    (hsub : ∀ c, isSeparator' c = true → isSeparator c = true) : IsWhole isSeparator' cs :=
  ⟨h.balanced, piecesFrom_eq_self_mono hsub h.pieces_eq⟩

theorem append {a b : List Char} (ha : IsWhole isSeparator a) (hb : IsWhole isSeparator b) :
    IsWhole isSeparator (a ++ b) := by
  refine ⟨ha.balanced.append hb.balanced, piecesFrom_append_self ha.pieces_eq ?_⟩
  rw [ha.balanced.depthFrom_eq 0]
  exact hb.pieces_eq

/-- A balanced text in parentheses is one piece, whatever separators it holds. -/
theorem group {cs : List Char} (h : Balanced 0 cs) (hopen : isSeparator '(' = false) :
    IsWhole isSeparator ('(' :: (cs ++ [')'])) := by
  refine ⟨h.group, ?_⟩
  have hcs : piecesFrom isSeparator 1 cs = [cs] := h.piecesFrom_eq 0
  have hrest : piecesFrom isSeparator 1 (cs ++ [')']) = [cs ++ [')']] := by
    refine piecesFrom_append_self hcs ?_
    rw [h.depthFrom_eq 1]
    rfl
  have hstep : depthStep 0 '(' = 1 := rfl
  rw [pieces, piecesFrom, if_neg (by simp [hopen]), hstep, hrest, consFirst_cons]

end IsWhole

/-! ### Joined pieces -/

/-- A text that consists of some pieces, with a separator between each two. -/
inductive Joined (isSeparator : Char → Bool) : List (List Char) → List Char → Prop
  | nil : Joined isSeparator [] []
  | single (piece : List Char) : Joined isSeparator [piece] piece
  | cons {s : Char} {piece next : List Char} {rest : List (List Char)} {text : List Char} :
      isSeparator s = true → Joined isSeparator (next :: rest) text →
        Joined isSeparator (piece :: next :: rest) (piece ++ s :: text)

/-- **Joined pieces are cut where they were joined.** -/
theorem pieces_of_joined {isSeparator : Char → Bool} {ps : List (List Char)} {text : List Char}
    (h : Joined isSeparator ps text) (hne : ps ≠ []) (hps : ∀ p ∈ ps, IsWhole isSeparator p) :
    pieces isSeparator text = ps := by
  induction h with
  | nil => exact absurd rfl hne
  | single piece => exact (hps piece List.mem_cons_self).pieces_eq
  | @cons s piece next rest text hs _ ih =>
      have hpiece := hps piece List.mem_cons_self
      have hrest := ih (List.cons_ne_nil _ _) fun p hp => hps p (List.mem_cons_of_mem _ hp)
      -- the piece is balanced, so that the separator behind it stands at depth zero
      have hcut : piecesFrom isSeparator 0 (s :: text) = [] :: pieces isSeparator text := by
        rw [piecesFrom, if_pos (by simp [hs])]
        rfl
      rw [pieces, piecesFrom_append hpiece.pieces_eq, hpiece.balanced.depthFrom_eq 0, hcut,
        foldr_consFirst_cons, List.append_nil, hrest]

namespace Joined

variable {isSeparator : Char → Bool} {ps : List (List Char)} {text : List Char}

theorem mono {isSeparator' : Char → Bool} (h : Joined isSeparator ps text)
    (hsub : ∀ c, isSeparator c = true → isSeparator' c = true) : Joined isSeparator' ps text := by
  induction h with
  | nil => exact .nil
  | single piece => exact .single piece
  | cons hs _ ih => exact .cons (hsub _ hs) ih

theorem append {qs : List (List Char)} {s : Char} {text' : List Char}
    (h : Joined isSeparator ps text) (hps : ps ≠ []) (hs : isSeparator s = true)
    (h' : Joined isSeparator qs text') (hqs : qs ≠ []) :
    Joined isSeparator (ps ++ qs) (text ++ s :: text') := by
  obtain ⟨q, qs, rfl⟩ := List.exists_cons_of_ne_nil hqs
  induction h with
  | nil => exact absurd rfl hps
  | single piece => exact .cons hs h'
  | cons hs' _ ih =>
      rw [List.append_assoc, List.cons_append, List.cons_append]
      exact .cons hs' (ih (List.cons_ne_nil _ _))

/-- Pieces that are themselves joined from smaller ones make the text one of the smaller ones. -/
theorem flatMap {α : Type} {items : List α} {whole : α → List Char} {parts : α → List (List Char)}
    (h : Joined isSeparator (items.map whole) text)
    (hparts : ∀ a ∈ items, Joined isSeparator (parts a) (whole a) ∧ parts a ≠ []) :
    Joined isSeparator (items.flatMap parts) text := by
  induction items generalizing text with
  | nil => simpa using h
  | cons a items ih =>
      obtain ⟨ha, hne⟩ := hparts a List.mem_cons_self
      -- a separator follows unless this is the last piece
      cases items with
      | nil =>
          cases h
          simpa using ha
      | cons b items =>
          cases h with
          | cons hs hrest =>
              have hb := (hparts b (List.mem_cons_of_mem _ List.mem_cons_self)).2
              refine ha.append hne hs (ih hrest fun x hx => hparts x (List.mem_cons_of_mem _ hx)) ?_
              simp [hb]

theorem head?_eq {piece : List Char} (h : Joined isSeparator (piece :: ps) text)
    (hne : piece ≠ []) : text.head? = piece.head? := by
  cases h with
  | single => rfl
  | cons =>
      rw [List.head?_append, Option.or_of_isSome]
      simpa using hne

theorem balanced (h : Joined isSeparator ps text)
    (hsep : ∀ c, isSeparator c = true → ¬ IsParenthesis c) (hps : ∀ p ∈ ps, Balanced 0 p) :
    Balanced 0 text := by
  induction h with
  | nil => exact .nil
  | single piece => exact hps piece List.mem_cons_self
  | cons hs _ ih =>
      have hrest := ih fun p hp => hps p (List.mem_cons_of_mem _ hp)
      exact (hps _ List.mem_cons_self).append (.plain (hsep _ hs) hrest)

/-- Separators of one kind join pieces to a text that is in one piece for another kind. -/
theorem isWhole {isSeparator' : Char → Bool} (h : Joined isSeparator ps text)
    (hsep : ∀ c, isSeparator c = true → ¬ IsParenthesis c)
    (hother : ∀ c, isSeparator c = true → isSeparator' c = false)
    (hps : ∀ p ∈ ps, IsWhole isSeparator' p) : IsWhole isSeparator' text := by
  induction h with
  | nil => exact ⟨.nil, rfl⟩
  | single piece => exact hps piece List.mem_cons_self
  | @cons s piece next rest text hs _ ih =>
      have hrest := ih fun p hp => hps p (List.mem_cons_of_mem _ hp)
      have hmark : IsWhole isSeparator' [s] :=
        .of_forall (by simpa using hsep s hs) (by simpa using hother s hs)
      exact (hps piece List.mem_cons_self).append (hmark.append hrest)

theorem isTrimmed (h : Joined isSeparator ps text)
    (hps : ∀ p ∈ ps, p ≠ [] ∧ Text.IsTrimmed p) : Text.IsTrimmed text ∧ (ps ≠ [] → text ≠ []) := by
  induction h with
  | nil => exact ⟨.nil, fun h => absurd rfl h⟩
  | single piece =>
      obtain ⟨hne, htrim⟩ := hps piece List.mem_cons_self
      exact ⟨htrim, fun _ => hne⟩
  | cons hs _ ih =>
      obtain ⟨hne, htrim⟩ := hps _ List.mem_cons_self
      obtain ⟨hrest, hrestne⟩ := ih fun p hp => hps p (List.mem_cons_of_mem _ hp)
      refine ⟨?_, fun _ => by simp⟩
      simpa using htrim.between hne hrest (hrestne (List.cons_ne_nil _ _)) [_]

end Joined

theorem joined_intercalate (s : Char) (ps : List (List Char)) :
    Joined (· == s) ps ([s].intercalate ps) := by
  induction ps with
  | nil => exact .nil
  | cons p ps ih =>
      cases ps with
      | nil => simpa using Joined.single p
      | cons q ps =>
          rw [List.intercalate_cons_cons, List.append_assoc]
          exact .cons (by simp) ih

end OData.Query
