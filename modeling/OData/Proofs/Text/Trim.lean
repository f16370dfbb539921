/-
What trimming takes away.

Trimming takes blanks off the ends of a text and nothing else: what is left of a text, with blanks
around it, is the text.  So it does not matter how many blanks stand around a text that is trimmed
later on, and trimming twice is trimming once.

* `Text.AllBlank` — texts of blanks;
* `Text.exists_eq_append_trimStart`, `Text.exists_eq_trimEnd_append` — what is taken away is blank;
* `Text.AllBlank.trim_append`, `Text.AllBlank.trim_append_left` — **blanks at an end do not
  matter**;
* `Text.trim_trim` — trimming twice is trimming once, and `Text.isTrimmed_trim` — there is nothing
  left to trim.
-/

import OData.Text.Blank

set_option relaxedAutoImplicit false
set_option autoImplicit false

namespace OData.Text

/-- A text of blanks. -/
def AllBlank (cs : List Char) : Prop := ∀ c ∈ cs, isBlank c = true

/-! ### Blanks at an end -/

namespace AllBlank

variable {b : List Char}

theorem trimStart_append (h : AllBlank b) (cs : List Char) : trimStart (b ++ cs) = trimStart cs :=
  List.dropWhile_append_of_pos h

theorem trimStart_eq_nil (h : AllBlank b) : trimStart b = [] := by
  have := h.trimStart_append []
  rwa [List.append_nil] at this

theorem trimEnd_append (h : AllBlank b) (cs : List Char) : trimEnd (cs ++ b) = trimEnd cs := by
  have hreverse : ∀ c ∈ b.reverse, isBlank c = true := fun c hc => h c (List.mem_reverse.1 hc)
  rw [trimEnd, List.reverse_append, List.dropWhile_append_of_pos hreverse, trimEnd]

theorem trim_append_left (h : AllBlank b) (cs : List Char) : trim (b ++ cs) = trim cs := by
  rw [trim, h.trimStart_append, trim]

theorem trim_append (h : AllBlank b) (cs : List Char) : trim (cs ++ b) = trim cs := by
  rw [trim, trimStart, List.dropWhile_append]
  by_cases hcs : (cs.dropWhile isBlank).isEmpty = true
  · -- the whole text is blank
    have hnil : trimStart cs = [] := List.isEmpty_iff.1 hcs
    have hb : b.dropWhile isBlank = [] := h.trimStart_eq_nil
    rw [if_pos hcs, hb, trim, hnil]
  · rw [if_neg hcs]
    exact h.trimEnd_append (trimStart cs)

end AllBlank

/-! ### What is taken away -/

theorem exists_eq_append_trimStart (cs : List Char) : ∃ b, AllBlank b ∧ cs = b ++ trimStart cs := by
  refine ⟨cs.takeWhile isBlank, ?_, List.takeWhile_append_dropWhile.symm⟩
  intro c hc
  exact List.all_eq_true.1 List.all_takeWhile c hc

theorem exists_eq_trimEnd_append (cs : List Char) : ∃ b, AllBlank b ∧ cs = trimEnd cs ++ b := by
  obtain ⟨b, hb, heq⟩ := exists_eq_append_trimStart cs.reverse
  refine ⟨b.reverse, fun c hc => hb c (List.mem_reverse.1 hc), ?_⟩
  have := congrArg List.reverse heq
  rwa [List.reverse_reverse, List.reverse_append] at this

theorem trim_trimStart (cs : List Char) : trim (trimStart cs) = trim cs := by
  obtain ⟨b, hb, heq⟩ := exists_eq_append_trimStart cs
  exact (hb.trim_append_left _).symm.trans (congrArg trim heq.symm)

theorem trim_trimEnd (cs : List Char) : trim (trimEnd cs) = trim cs := by
  obtain ⟨b, hb, heq⟩ := exists_eq_trimEnd_append cs
  exact (hb.trim_append _).symm.trans (congrArg trim heq.symm)

theorem trim_trim (cs : List Char) : trim (trim cs) = trim cs :=
  (trim_trimEnd (trimStart cs)).trans (trim_trimStart cs)

/-- What is trimmed stands between blanks. -/
theorem exists_eq_append_trim_append (cs : List Char) :
    ∃ a b, AllBlank a ∧ AllBlank b ∧ cs = a ++ (trim cs ++ b) := by
  obtain ⟨a, ha, hstart⟩ := exists_eq_append_trimStart cs
  obtain ⟨b, hb, hend⟩ := exists_eq_trimEnd_append (trimStart cs)
  exact ⟨a, b, ha, hb, hstart.trans (congrArg (a ++ ·) hend)⟩

theorem isBlank_of_mem_head?_dropWhile {cs : List Char} {c : Char}
    (h : c ∈ (cs.dropWhile isBlank).head?) : isBlank c = false := by
  have := List.head?_dropWhile_not isBlank cs
  rw [Option.mem_def.1 h] at this
  simpa using this

/-- Nothing blank is left at the ends of what is trimmed. -/
theorem isTrimmed_trim (cs : List Char) : IsTrimmed (trim cs) where
  first c hc := by
    -- the blanks at the end are taken off without reaching the beginning
    obtain ⟨b, -, heq⟩ := exists_eq_trimEnd_append (trimStart cs)
    have hend : (trimEnd (trimStart cs)).head? = some c := hc
    have hstart : (trimStart cs).head? = some c := by
      rw [heq, List.head?_append, hend]
      rfl
    exact isBlank_of_mem_head?_dropWhile hstart
  last c hc := by
    rw [trim, trimEnd, List.getLast?_reverse] at hc
    exact isBlank_of_mem_head?_dropWhile hc

/-! ### Texts without blanks -/

theorem isTrimmed_of_forall {cs : List Char} (h : ∀ c ∈ cs, isBlank c = false) : IsTrimmed cs where
  first c hc := h c (List.mem_of_mem_head? hc)
  last c hc := h c (List.mem_of_mem_getLast? hc)

/-- A trimmed text between characters that are no blanks is trimmed. -/
theorem IsTrimmed.append_append {a m b : List Char} (h : IsTrimmed m)
    (ha : ∀ c ∈ a, isBlank c = false) (hb : ∀ c ∈ b, isBlank c = false) :
    IsTrimmed (a ++ m ++ b) where
  first c hc := by
    simp only [List.append_assoc, List.head?_append, Option.mem_def, Option.or_eq_some_iff] at hc
    rcases hc with hc | ⟨-, hc | ⟨-, hc⟩⟩
    · exact ha c (List.mem_of_mem_head? hc)
    · exact h.first c hc
    · exact hb c (List.mem_of_mem_head? hc)
  last c hc := by
    simp only [List.getLast?_append, Option.mem_def, Option.or_eq_some_iff] at hc
    rcases hc with hc | ⟨-, hc | ⟨-, hc⟩⟩
    · exact hb c (List.mem_of_mem_getLast? hc)
    · exact h.last c hc
    · exact ha c (List.mem_of_mem_getLast? hc)

/-- Characters that are no blanks stay in front of what is trimmed at its end. -/
theorem trimEnd_append_of_forall {a : List Char} (h : ∀ c ∈ a, isBlank c = false)
    (cs : List Char) : trimEnd (a ++ cs) = a ++ trimEnd cs := by
  have ha : a.reverse.dropWhile isBlank = a.reverse := by
    cases hr : a.reverse with
    | nil => rfl
    | cons c rest =>
        have hc : c ∈ a := List.mem_reverse.1 (hr ▸ List.mem_cons_self)
        rw [List.dropWhile_cons_of_neg (by simp [h c hc])]
  rw [trimEnd, trimEnd, List.reverse_append, List.dropWhile_append, ha]
  by_cases hcs : (cs.reverse.dropWhile isBlank).isEmpty = true
  · rw [if_pos hcs, List.isEmpty_iff.1 hcs, List.reverse_reverse, List.reverse_nil, List.append_nil]
  · rw [if_neg hcs, List.reverse_append, List.reverse_reverse]

/-- A text that begins with no blank is only trimmed at its end. -/
theorem trim_cons {c : Char} (h : isBlank c = false) (cs : List Char) :
    trim (c :: cs) = c :: trimEnd cs := by
  have hstart : trimStart (c :: cs) = c :: cs := List.dropWhile_cons_of_neg (by simp [h])
  have hend : trimEnd ([c] ++ cs) = [c] ++ trimEnd cs :=
    trimEnd_append_of_forall (by simpa using h) cs
  rw [trim, hstart]
  exact hend

/-- A trimmed text begins with the first character that is no blank. -/
theorem head?_trim (cs : List Char) : (trim cs).head? = cs.find? (! isBlank ·) := by
  induction cs with
  | nil => rfl
  | cons c cs ih =>
      cases hc : isBlank c with
      | false => simp [trim_cons hc, hc]
      | true =>
          have hblank : AllBlank [c] := by simpa [AllBlank] using hc
          have hskip : trim (c :: cs) = trim cs := hblank.trim_append_left cs
          rw [hskip, ih, List.find?_cons_of_neg (by simp [hc])]

/-- A run of characters ends where another character stands. -/
theorem takeWhile_append_of_head {p : Char → Bool} {b : List Char}
    (h : ∀ c ∈ b.head?, p c = false) (a : List Char) :
    (a ++ b).takeWhile p = a.takeWhile p := by
  have hb : b.takeWhile p = [] := by
    cases b with
    | nil => rfl
    | cons c b => exact List.takeWhile_cons_of_neg (by simp [h c rfl])
  rw [List.takeWhile_append, hb]
  by_cases ha : (a.takeWhile p).length = a.length
  · rw [if_pos ha, List.append_nil]
    exact ((List.takeWhile_prefix p).eq_of_length ha).symm
  · rw [if_neg ha]

end OData.Text
