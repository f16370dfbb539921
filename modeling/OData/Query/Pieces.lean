/-
Cutting a query text outside its parentheses.

The values of `$expand` carry commas and ampersands of their own inside parentheses, so a query text
is cut only at the separators that stand outside all of them.  A stray closing parenthesis is an
ordinary character: it never takes the depth below zero.

* `Query.depth` — how many parentheses are open after a text;
* `Query.pieces` — the pieces of a text between the separators of depth zero;
* `Query.groupContent` — the text up to the parenthesis that closes an already opened group;
* `Query.isBalanced` — every parenthesis has its partner;
* `Query.splitOnce` — a text cut at the first occurrence of a character.
-/

set_option relaxedAutoImplicit false
set_option autoImplicit false

namespace OData.Query

/-! ### Depth -/

/-- The number of open parentheses after one more character. -/
def depthStep (depth : Nat) (c : Char) : Nat :=
  if c = '(' then depth + 1 else if c = ')' then depth - 1 else depth

/-- The number of open parentheses after a text that starts at a given depth. -/
def depthFrom (start : Nat) (cs : List Char) : Nat := cs.foldl depthStep start

/-- The number of open parentheses after a text. -/
def depth (cs : List Char) : Nat := depthFrom 0 cs

@[simp] theorem depthFrom_nil (d : Nat) : depthFrom d [] = d := rfl

@[simp] theorem depthFrom_cons (d : Nat) (c : Char) (cs : List Char) :
    depthFrom d (c :: cs) = depthFrom (depthStep d c) cs := rfl

theorem depthFrom_append (d : Nat) (a b : List Char) :
    depthFrom d (a ++ b) = depthFrom (depthFrom d a) b := by
  simp [depthFrom]

/-! ### Pieces -/

/-- Puts a character in front of the first piece. -/
def consFirst (c : Char) : List (List Char) → List (List Char)
  | [] => [[c]]
  | piece :: rest => (c :: piece) :: rest

@[simp] theorem consFirst_cons (c : Char) (piece : List Char) (rest : List (List Char)) :
    consFirst c (piece :: rest) = (c :: piece) :: rest := rfl

/-- The pieces of a text that starts at a given depth, cut at the separators of depth zero. -/
def piecesFrom (isSeparator : Char → Bool) : Nat → List Char → List (List Char)
  | _, [] => [[]]
  | d, c :: cs =>
    if d = 0 && isSeparator c then [] :: piecesFrom isSeparator 0 cs
    else consFirst c (piecesFrom isSeparator (depthStep d c) cs)

/-- The pieces of a text between its separators of depth zero.  There is one more piece than there
are such separators, so the pieces of the empty text are one empty piece. -/
def pieces (isSeparator : Char → Bool) (cs : List Char) : List (List Char) :=
  piecesFrom isSeparator 0 cs

theorem piecesFrom_ne_nil (isSeparator : Char → Bool) (d : Nat) (cs : List Char) :
    piecesFrom isSeparator d cs ≠ [] := by
  induction cs generalizing d with
  | nil => simp [piecesFrom]
  | cons c cs ih =>
    unfold piecesFrom
    split
    · simp
    · cases h : piecesFrom isSeparator (depthStep d c) cs with
      | nil => exact absurd h (ih _)
      | cons piece rest => simp

/-- A piece has no other characters than the text. -/
theorem sublist_of_mem_piecesFrom {isSeparator : Char → Bool} {d : Nat} {cs piece : List Char}
    (h : piece ∈ piecesFrom isSeparator d cs) : piece.Sublist cs := by
  induction cs generalizing d piece with
  | nil => simp_all [piecesFrom]
  | cons c cs ih =>
    unfold piecesFrom at h
    split at h
    · rcases List.mem_cons.1 h with rfl | h
      · exact List.nil_sublist _
      · exact (ih h).cons c
    · cases hp : piecesFrom isSeparator (depthStep d c) cs with
      | nil => exact absurd hp (piecesFrom_ne_nil _ _ _)
      | cons first rest =>
        rw [hp, consFirst_cons] at h
        rcases List.mem_cons.1 h with rfl | h
        · exact (ih (hp ▸ List.mem_cons_self : first ∈ _)).cons_cons c
        · exact (ih (hp ▸ List.mem_cons_of_mem _ h)).cons c

theorem sublist_of_mem_pieces {isSeparator : Char → Bool} {cs piece : List Char}
    (h : piece ∈ pieces isSeparator cs) : piece.Sublist cs :=
  sublist_of_mem_piecesFrom h

/-! ### Groups -/

/-- The text up to the parenthesis that closes the group opened before it, at the given depth inside
that group.  The end of the text closes every group. -/
def groupContentFrom : Nat → List Char → List Char
  | _, [] => []
  | d, c :: cs =>
    if c = '(' then c :: groupContentFrom (d + 1) cs
    else if c = ')' then
      match d with
      | 0 => []
      | d + 1 => c :: groupContentFrom d cs
    else c :: groupContentFrom d cs

/-- The content of a group whose opening parenthesis has been read. -/
def groupContent (cs : List Char) : List Char := groupContentFrom 0 cs

theorem sublist_groupContentFrom (d : Nat) (cs : List Char) :
    (groupContentFrom d cs).Sublist cs := by
  fun_induction groupContentFrom d cs
  case case1 => exact List.nil_sublist _
  case case3 => exact List.nil_sublist _
  all_goals exact List.Sublist.cons_cons _ ‹_›

theorem sublist_groupContent (cs : List Char) : (groupContent cs).Sublist cs :=
  sublist_groupContentFrom 0 cs

/-- Whether every parenthesis of a text that starts at a given depth has its partner. -/
def isBalancedFrom : Nat → List Char → Bool
  | d, [] => d == 0
  | d, c :: cs =>
    if c = '(' then isBalancedFrom (d + 1) cs
    else if c = ')' then
      match d with
      | 0 => false
      | d + 1 => isBalancedFrom d cs
    else isBalancedFrom d cs

/-- Whether every parenthesis of a text has its partner. -/
def isBalanced (cs : List Char) : Bool := isBalancedFrom 0 cs

/-! ### Splitting at one character -/

/-- The texts before and after the first occurrence of a character, if it occurs. -/
def splitOnce (mark : Char) : List Char → Option (List Char × List Char)
  | [] => none
  | c :: cs =>
    if c = mark then some ([], cs)
    else (splitOnce mark cs).map fun parts => (c :: parts.1, parts.2)

theorem eq_append_of_splitOnce {mark : Char} {cs before after : List Char}
    (h : splitOnce mark cs = some (before, after)) : cs = before ++ mark :: after := by
  induction cs generalizing before with
  | nil => simp [splitOnce] at h
  | cons c cs ih =>
    unfold splitOnce at h
    split at h
    · simp_all
    · obtain ⟨parts, hparts, heq⟩ := Option.map_eq_some_iff.1 h
      simp only [Prod.mk.injEq] at heq
      obtain ⟨rfl, rfl⟩ := heq
      simp [ih hparts]

theorem length_after_lt_of_splitOnce {mark : Char} {cs before after : List Char}
    (h : splitOnce mark cs = some (before, after)) : after.length < cs.length := by
  rw [eq_append_of_splitOnce h]
  simp
  omega

theorem sublist_after_of_splitOnce {mark : Char} {cs before after : List Char}
    (h : splitOnce mark cs = some (before, after)) : after.Sublist cs := by
  rw [eq_append_of_splitOnce h]
  exact ((List.Sublist.refl after).cons mark).trans (List.sublist_append_right ..)

end OData.Query
