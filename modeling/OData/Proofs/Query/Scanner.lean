/-
Where the cursor cuts a text.

The cursor reads bytes, and it counts parentheses anew whenever it sets out.  Separators of one byte
each, none of them a parenthesis, make both harmless.  The bytes of other characters are all above
those of the separators and the parentheses, so that the cursor passes over a character as a whole.
And it sets out behind a separator at which nothing was open, so that what it counts from there is
what is open in the whole text.

Main definitions:

* `Query.IsCut` — a separator outside the parentheses of the whole text;
* `Query.IsWalk` — turns that take the pieces of a text and cut it at such separators.

Main results:

* `Query.Scanner.reach_ascii`, `Query.Scanner.reach_other` — one character further;
* `Query.Scanner.takeUntil_whole`, `Query.Scanner.takeUntil_cut` — what is taken in one turn;
* `Query.isCut_append_iff` — **depth counted anew behind a cut is depth**;
* `Query.Scanner.exists_run` — any text is walked to its end;
* `Query.Scanner.run_cuts_iff` — **the cursor cuts at the separators outside parentheses, and there
  only**.
-/

import OData.Proofs.Query.FirstCut
import OData.Query.Scanner

set_option relaxedAutoImplicit false
set_option autoImplicit false

namespace OData.Query

/-! ### Bytes -/

theorem utf8Bytes_append (a b : String) : utf8Bytes (a ++ b) = utf8Bytes a ++ utf8Bytes b := by
  simp [utf8Bytes, String.toByteArray_append]

theorem length_utf8Bytes (text : String) : (utf8Bytes text).length = text.utf8ByteSize := by
  simp [utf8Bytes, ← String.size_toByteArray]

theorem utf8Bytes_singleton (c : Char) :
    utf8Bytes (String.ofList [c]) = String.utf8EncodeChar c := by
  simp [utf8Bytes, List.utf8Encode_singleton]

theorem utf8Bytes_cons (c : Char) (cs : List Char) :
    utf8Bytes (String.ofList (c :: cs)) = String.utf8EncodeChar c ++ utf8Bytes (String.ofList cs) := by
  rw [← List.singleton_append, String.ofList_append, utf8Bytes_append, utf8Bytes_singleton]

/-- A character of one byte. -/
def IsAscii (c : Char) : Prop := c.toNat < 128

instance (c : Char) : Decidable (IsAscii c) := inferInstanceAs (Decidable (c.toNat < 128))

theorem utf8EncodeChar_of_isAscii {c : Char} (h : IsAscii c) :
    String.utf8EncodeChar c = [c.toUInt8] :=
  String.utf8EncodeChar_eq_singleton (Char.utf8Size_eq_one_iff.2 (Nat.le_of_lt_succ h))

theorem utf8ByteSize_append_cons {c : Char} (h : IsAscii c) (a b : List Char) :
    (String.ofList (a ++ c :: b)).utf8ByteSize
      = (String.ofList a).utf8ByteSize + 1 + (String.ofList b).utf8ByteSize := by
  rw [← length_utf8Bytes, String.ofList_append, utf8Bytes_append, utf8Bytes_cons,
    utf8EncodeChar_of_isAscii h, List.length_append, List.length_append, length_utf8Bytes,
    length_utf8Bytes, List.length_singleton]
  omega

theorem toUInt8_toNat {c : Char} (h : IsAscii c) : c.toUInt8.toNat = c.toNat := by
  rw [IsAscii] at h
  show c.toNat % 2 ^ 8 = c.toNat
  omega

/-- The bytes of all other characters are above those of the characters of one byte. -/
theorem le_of_mem_utf8EncodeChar {c : Char} (h : ¬ IsAscii c) {byte : UInt8}
    (hbyte : byte ∈ String.utf8EncodeChar c) : 128 ≤ byte.toNat := by
  have hbig : ¬ c.val.toNat ≤ 0x7f := fun hle => h (Nat.lt_succ_of_le hle)
  unfold String.utf8EncodeChar at hbyte
  simp only [if_neg hbig] at hbyte
  split at hbyte
  · simp only [List.mem_cons, List.not_mem_nil, or_false] at hbyte
    rcases hbyte with rfl | rfl <;> simp only [UInt8.toNat_ofNat'] <;> omega
  · split at hbyte
    · simp only [List.mem_cons, List.not_mem_nil, or_false] at hbyte
      rcases hbyte with rfl | rfl | rfl <;> simp only [UInt8.toNat_ofNat'] <;> omega
    · simp only [List.mem_cons, List.not_mem_nil, or_false] at hbyte
      rcases hbyte with rfl | rfl | rfl | rfl <;> simp only [UInt8.toNat_ofNat'] <;> omega

theorem toUInt8_inj {c d : Char} (hc : IsAscii c) (hd : IsAscii d) :
    c.toUInt8 = d.toUInt8 ↔ c = d := by
  refine ⟨fun h => Char.toNat_inj.1 ?_, fun h => h ▸ rfl⟩
  rw [← toUInt8_toNat hc, ← toUInt8_toNat hd, h]

/-! ### Texts between boundaries -/

theorem isValid_append (a b : String) : (⟨a.utf8ByteSize⟩ : String.Pos.Raw).IsValid (a ++ b) :=
  String.Pos.Raw.isValid_iff_exists_append.2 ⟨a, b, rfl, rfl⟩

/-- What stands between two texts is what is taken between their places. -/
theorem slice?_append (a m b : String) :
    slice? (a ++ (m ++ b)) a.utf8ByteSize (a.utf8ByteSize + m.utf8ByteSize) = some m := by
  have hlast : (⟨a.utf8ByteSize + m.utf8ByteSize⟩ : String.Pos.Raw).IsValid (a ++ (m ++ b)) := by
    simpa [String.append_assoc] using isValid_append (a ++ m) b
  rw [slice?, dif_pos ⟨Nat.le_add_right .., isValid_append a (m ++ b), hlast⟩]
  refine congrArg some (String.toByteArray_inj.1 ?_)
  rw [String.toByteArray_copy_slice, String.offset_pos, String.offset_pos,
    String.toByteArray_append, String.toByteArray_append]
  exact (ByteArray.extract_append_size_add (i := 0)).trans (ByteArray.extract_append_eq_left rfl)

/-! ### One character further -/

namespace Scanner

/-- Bytes that are neither separators nor parentheses are passed over. -/
theorem reach_plain {stops bytes : List UInt8}
    (h : ∀ byte ∈ bytes, byte ≠ '('.toUInt8 ∧ byte ≠ ')'.toUInt8 ∧ byte ∉ stops) (d : Nat)
    (tail : List UInt8) : reach stops d (bytes ++ tail) = bytes.length + reach stops d tail := by
  induction bytes with
  | nil => simp
  | cons byte bytes ih =>
      obtain ⟨hopen, hclose, hstop⟩ := h byte List.mem_cons_self
      have hrest := ih fun other hother => h other (List.mem_cons_of_mem _ hother)
      rw [List.cons_append, reach, if_neg hopen, if_neg hclose, if_neg (by simp [hstop]), hrest,
        List.length_cons]
      omega

section

variable {stops : List Char} (hstops : ∀ c ∈ stops, IsAscii c ∧ ¬ IsParenthesis c)

include hstops

theorem mem_map_toUInt8_iff {c : Char} (hc : IsAscii c) :
    c.toUInt8 ∈ stops.map Char.toUInt8 ↔ c ∈ stops := by
  refine ⟨fun h => ?_, fun h => List.mem_map_of_mem h⟩
  obtain ⟨stop, hstop, heq⟩ := List.mem_map.1 h
  rwa [← (toUInt8_inj (hstops stop hstop).1 hc).1 heq]

/-- The cursor stops in front of a separator if nothing is open, and counts a parenthesis. -/
theorem reach_ascii {c : Char} (hc : IsAscii c) (d : Nat) (tail : List UInt8) :
    reach (stops.map Char.toUInt8) d (c.toUInt8 :: tail)
      = if d = 0 && stops.contains c then 0
        else reach (stops.map Char.toUInt8) (depthStep d c) tail + 1 := by
  have hopen : c.toUInt8 = '('.toUInt8 ↔ c = '(' := toUInt8_inj hc (by decide)
  have hclose : c.toUInt8 = ')'.toUInt8 ↔ c = ')' := toUInt8_inj hc (by decide)
  have hcontains : (stops.map Char.toUInt8).contains c.toUInt8 = stops.contains c := by
    rw [Bool.eq_iff_iff, List.contains_iff_mem, List.contains_iff_mem, mem_map_toUInt8_iff hstops hc]
  rw [reach, hcontains, depthStep]
  simp only [hopen, hclose]
  by_cases hparen : IsParenthesis c
  · -- a parenthesis is no separator
    have hstop : ¬ (d = 0 && stops.contains c) = true := by
      intro hcut
      exact (hstops c (by simpa using (Bool.and_eq_true_iff.1 hcut).2)).2 hparen
    rw [if_neg hstop, if_neg hstop]
    rcases hparen with rfl | rfl <;> rfl
  · rw [IsParenthesis, not_or] at hparen
    rw [if_neg hparen.1, if_neg hparen.2, if_neg hparen.1, if_neg hparen.2]

/-- The cursor passes over a character of several bytes as a whole. -/
theorem reach_other {c : Char} (hc : ¬ IsAscii c) (d : Nat) (tail : List UInt8) :
    reach (stops.map Char.toUInt8) d (String.utf8EncodeChar c ++ tail)
      = (String.utf8EncodeChar c).length + reach (stops.map Char.toUInt8) d tail := by
  refine reach_plain (fun byte hbyte => ?_) d tail
  -- a byte of this character is above every byte that the cursor looks at
  have hlarge := le_of_mem_utf8EncodeChar hc hbyte
  have hother : ∀ other : Char, IsAscii other → byte ≠ other.toUInt8 := by
    rintro other hother rfl
    rw [toUInt8_toNat hother] at hlarge
    exact absurd hother (Nat.not_lt.2 hlarge)
  refine ⟨hother _ (by decide), hother _ (by decide), fun hmem => ?_⟩
  obtain ⟨stop, hstop, heq⟩ := List.mem_map.1 hmem
  exact hother stop (hstops stop hstop).1 heq.symm

theorem reach_stop {c : Char} (hc : c ∈ stops) (tail : List UInt8) :
    reach (stops.map Char.toUInt8) 0 (String.utf8EncodeChar c ++ tail) = 0 := by
  have hascii := (hstops c hc).1
  rw [utf8EncodeChar_of_isAscii hascii, List.singleton_append, reach_ascii hstops hascii,
    if_pos (by simpa using hc)]

/-- The cursor passes over any character that does not cut the text. -/
theorem reach_character {c : Char} {d : Nat} (hcut : ¬ (d = 0 && stops.contains c) = true)
    (tail : List UInt8) :
    reach (stops.map Char.toUInt8) d (String.utf8EncodeChar c ++ tail)
      = (String.utf8EncodeChar c).length
        + reach (stops.map Char.toUInt8) (depthStep d c) tail := by
  by_cases hascii : IsAscii c
  · rw [utf8EncodeChar_of_isAscii hascii, List.singleton_append, List.length_singleton,
      reach_ascii hstops hascii, if_neg hcut, Nat.add_comm]
  · have hparen : ¬ IsParenthesis c := by
      rintro (rfl | rfl) <;> exact hascii (by decide)
    rw [reach_other hstops hascii, depthStep_eq hparen]

/-- The cursor passes over a text in one piece. -/
theorem reach_whole {cs : List Char} {d : Nat}
    (h : piecesFrom (stops.contains ·) d cs = [cs]) (tail : List UInt8) :
    reach (stops.map Char.toUInt8) d (utf8Bytes (String.ofList cs) ++ tail)
      = (String.ofList cs).utf8ByteSize
        + reach (stops.map Char.toUInt8) (depthFrom d cs) tail := by
  rw [← length_utf8Bytes]
  induction cs generalizing d with
  | nil => simp [utf8Bytes]
  | cons c cs ih =>
      obtain ⟨hcut, hrest⟩ := piecesFrom_cons_eq_self_iff.1 h
      rw [utf8Bytes_cons, List.append_assoc, reach_character hstops hcut, ih hrest,
        List.length_append, depthFrom_cons]
      omega

end

/-! ### One turn -/

theorem unread_append (a b : String) : unread ⟨a ++ b, a.utf8ByteSize⟩ = utf8Bytes b := by
  rw [unread, utf8Bytes_append, ← length_utf8Bytes, List.drop_left]

theorem takeUntil_append {stops : List UInt8} (a m b : String)
    (h : reach stops 0 (utf8Bytes (m ++ b)) = m.utf8ByteSize) :
    takeUntil stops ⟨a ++ (m ++ b), a.utf8ByteSize⟩
      = (some m, ⟨a ++ (m ++ b), a.utf8ByteSize + m.utf8ByteSize⟩) := by
  rw [takeUntil, unread_append, h, slice?_append]

/-- At the end of a text there is nothing to step over. -/
theorem bump_end (a : String) : bump ⟨a, a.utf8ByteSize⟩ = none := by
  have hunread : unread ⟨a, a.utf8ByteSize⟩ = [] := by
    rw [unread, ← length_utf8Bytes, List.drop_length]
  rw [bump, hunread]
  rfl

theorem bump_ascii {c : Char} (hc : IsAscii c) (a b : String) :
    bump ⟨a ++ (String.ofList [c] ++ b), a.utf8ByteSize⟩
      = some (c.toUInt8, ⟨a ++ (String.ofList [c] ++ b), a.utf8ByteSize + 1⟩) := by
  rw [bump, unread_append, utf8Bytes_append, utf8Bytes_singleton, utf8EncodeChar_of_isAscii hc]
  rfl

section

variable {stops : List Char} (hstops : ∀ c ∈ stops, IsAscii c ∧ ¬ IsParenthesis c)

include hstops

/-- A text in one piece is taken as a whole. -/
theorem takeUntil_whole {cs : List Char} (h : pieces (stops.contains ·) cs = [cs]) (a : String) :
    takeUntil (stops.map Char.toUInt8) ⟨a ++ String.ofList cs, a.utf8ByteSize⟩
      = (some (String.ofList cs),
        ⟨a ++ String.ofList cs, a.utf8ByteSize + (String.ofList cs).utf8ByteSize⟩) := by
  have hreach : reach (stops.map Char.toUInt8) 0 (utf8Bytes (String.ofList cs ++ ""))
      = (String.ofList cs).utf8ByteSize := by
    simpa [reach] using reach_whole hstops h []
  simpa using takeUntil_append a (String.ofList cs) "" hreach

/-- The first piece of a text is taken up to the separator behind it. -/
theorem takeUntil_cut {cs : List Char} (h : pieces (stops.contains ·) cs = [cs])
    (hdepth : depth cs = 0) {s : Char} (hs : s ∈ stops) (a b : String) :
    takeUntil (stops.map Char.toUInt8)
        ⟨a ++ (String.ofList cs ++ (String.ofList [s] ++ b)), a.utf8ByteSize⟩
      = (some (String.ofList cs), ⟨a ++ (String.ofList cs ++ (String.ofList [s] ++ b)),
          a.utf8ByteSize + (String.ofList cs).utf8ByteSize⟩) := by
  refine takeUntil_append a _ _ ?_
  have hdepth : depthFrom 0 cs = 0 := hdepth
  rw [utf8Bytes_append, utf8Bytes_append, utf8Bytes_singleton, reach_whole hstops h, hdepth,
    reach_stop hstops hs, Nat.add_zero]

end

end Scanner

/-! ### Where separators stand -/

/-- A separator outside the parentheses of the whole text stands behind its first characters. -/
def IsCut (isSeparator : Char → Bool) (cs before : List Char) : Prop :=
  ∃ c after, cs = before ++ c :: after ∧ isSeparator c = true ∧ depth before = 0

variable {isSeparator : Char → Bool}

theorem not_isCut {cs : List Char} (h : pieces isSeparator cs = [cs]) (before : List Char) :
    ¬ IsCut isSeparator cs before := by
  rintro ⟨c, after, heq, hc, hdepth⟩
  exact pieces_eq_self_iff.1 h before c after heq hc hdepth

/-- **Depth counted anew behind a cut is depth**: the separators outside parentheses are the first
one, and those that are so in the text behind it. -/
theorem isCut_append_iff (hparen : ∀ c, isSeparator c = true → ¬ IsParenthesis c)
    {a : List Char} {s : Char} (hs : isSeparator s = true) (ha : depth a = 0)
    (hfirst : pieces isSeparator a = [a]) (b before : List Char) :
    IsCut isSeparator (a ++ s :: b) before ↔
      before = a ∨ ∃ between, before = a ++ s :: between ∧ IsCut isSeparator b between := by
  have hdepth : ∀ between, depth (a ++ s :: between) = depth between := by
    intro between
    rw [depth_append ha, depth, depthFrom_cons, depthStep_eq (hparen s hs), depth]
  constructor
  · rintro ⟨c, after, heq, hc, hbefore⟩
    rcases List.append_eq_append_iff.1 heq with ⟨behind, rfl, hrest⟩ | ⟨front, rfl, hrest⟩
    · -- the separator is the first one, or stands behind it
      cases behind with
      | nil => exact .inl (List.append_nil a)
      | cons x between =>
          obtain ⟨rfl, rfl⟩ := List.cons.inj hrest
          exact .inr ⟨between, rfl, c, after, rfl, hc, by rwa [hdepth] at hbefore⟩
    · -- in front of the first one there is none
      cases front with
      | nil => exact .inl (List.append_nil before).symm
      | cons x front =>
          obtain ⟨rfl, -⟩ := List.cons.inj hrest
          exact absurd ⟨_, front, rfl, hc, hbefore⟩ (not_isCut hfirst before)
  · rintro (rfl | ⟨between, rfl, c, after, rfl, hc, hbetween⟩)
    · exact ⟨s, b, rfl, hs, ha⟩
    · exact ⟨c, after, by simp, hc, by rw [hdepth, hbetween]⟩

/-! ### All turns -/

/-- Turns that take the pieces of a text, which starts at some place, and cut it at its separators
outside parentheses. -/
structure IsWalk (stops : List Char) (start : Nat) (cs : List Char) (turns : List Turn) : Prop where
  bytes : turns.flatMap Turn.bytes = utf8Bytes (String.ofList cs)
  segments : turns.map (·.segment.toList) = pieces (stops.contains ·) cs
  increasing : (cuts turns).Pairwise (· < ·)
  cuts_iff : ∀ place, place ∈ cuts turns ↔
    ∃ before, IsCut (stops.contains ·) cs before ∧
      place = start + (String.ofList before).utf8ByteSize

section

variable {stops : List Char} (hstops : ∀ c ∈ stops, IsAscii c ∧ ¬ IsParenthesis c)

/-- The end of a text is one turn. -/
theorem IsWalk.whole {cs : List Char} (h : pieces (stops.contains ·) cs = [cs]) (start stop : Nat) :
    IsWalk stops start cs [⟨String.ofList cs, stop, none⟩] where
  bytes := by simp [Turn.bytes]
  segments := by simpa using h.symm
  increasing := List.Pairwise.nil
  cuts_iff := by
    intro place
    refine ⟨fun hmem => absurd hmem List.not_mem_nil, ?_⟩
    rintro ⟨before, hcut, -⟩
    exact absurd hcut (not_isCut h before)

include hstops

/-- A turn in front of a separator goes before the turns behind it. -/
theorem IsWalk.cut {a b : List Char} {s : Char} {start : Nat} {turns : List Turn} (hs : s ∈ stops)
    (ha : depth a = 0) (hfirst : pieces (stops.contains ·) a = [a])
    (hpieces : pieces (stops.contains ·) (a ++ s :: b) = a :: pieces (stops.contains ·) b)
    (h : IsWalk stops (start + (String.ofList a).utf8ByteSize + 1) b turns) :
    IsWalk stops start (a ++ s :: b)
      (⟨String.ofList a, start + (String.ofList a).utf8ByteSize, some s.toUInt8⟩ :: turns) where
  bytes := by
    rw [List.flatMap_cons, h.bytes, Turn.bytes, String.ofList_append, utf8Bytes_append,
      utf8Bytes_cons, utf8EncodeChar_of_isAscii (hstops s hs).1, List.append_assoc]
    rfl
  segments := by
    rw [List.map_cons, h.segments, hpieces, String.toList_ofList]
  increasing := by
    refine List.pairwise_cons.2 ⟨fun place hplace => ?_, h.increasing⟩
    obtain ⟨before, -, rfl⟩ := (h.cuts_iff place).1 hplace
    show start + (String.ofList a).utf8ByteSize < _
    omega
  cuts_iff := by
    intro place
    have hsize := utf8ByteSize_append_cons (hstops s hs).1 a
    have hsplit := isCut_append_iff (fun c hc => (hstops c (by simpa using hc)).2)
      (by simpa using hs) ha hfirst b
    have hcuts : place ∈ cuts (⟨String.ofList a, start + (String.ofList a).utf8ByteSize,
        some s.toUInt8⟩ :: turns)
        ↔ place = start + (String.ofList a).utf8ByteSize ∨ place ∈ cuts turns := List.mem_cons
    rw [hcuts, h.cuts_iff]
    constructor
    · rintro (rfl | ⟨between, hbetween, rfl⟩)
      · exact ⟨a, (hsplit a).2 (.inl rfl), rfl⟩
      · refine ⟨_, (hsplit _).2 (.inr ⟨between, rfl, hbetween⟩), ?_⟩
        rw [hsize]
        omega
    · rintro ⟨before, hbefore, rfl⟩
      rcases (hsplit before).1 hbefore with rfl | ⟨between, rfl, hbetween⟩
      · exact .inl rfl
      · refine .inr ⟨between, hbetween, ?_⟩
        rw [hsize]
        omega

namespace Scanner

/-- The cursor walks any text to its end, from wherever the text starts. -/
theorem exists_run (cs : List Char) (done : String) :
    ∃ turns, run (stops.map Char.toUInt8) ⟨done ++ String.ofList cs, done.utf8ByteSize⟩ = some turns ∧
      IsWalk stops done.utf8ByteSize cs turns := by
  induction cs using pieces_induction (stops.contains ·) generalizing done with
  | whole cs hself =>
      have htake := takeUntil_whole hstops hself done
      have hend : bump ⟨done ++ String.ofList cs,
          done.utf8ByteSize + (String.ofList cs).utf8ByteSize⟩ = none := by
        rw [← String.utf8ByteSize_append, bump_end]
      exact ⟨_, run_of_bump_eq_none htake hend, .whole hself _ _⟩
  | cut a s b hs ha hfirst hpieces ih =>
      have hs : s ∈ stops := by simpa using hs
      have htake := takeUntil_cut hstops hfirst ha hs done (String.ofList b)
      have hbump := bump_ascii (hstops s hs).1 (done ++ String.ofList a) (String.ofList b)
      -- the cursor goes on in the same text, of which more is done
      obtain ⟨turns, hrun, hwalk⟩ := ih (done ++ String.ofList a ++ String.ofList [s])
      have htext : done ++ String.ofList (a ++ s :: b)
          = done ++ (String.ofList a ++ (String.ofList [s] ++ String.ofList b)) := by
        rw [← String.ofList_append, ← String.ofList_append]
        rfl
      have hplace : (done ++ String.ofList a ++ String.ofList [s]).utf8ByteSize
          = done.utf8ByteSize + (String.ofList a).utf8ByteSize + 1 := by
        rw [String.append_assoc, ← String.ofList_append, String.utf8ByteSize_append,
          utf8ByteSize_append_cons (hstops s hs).1]
        rfl
      rw [hplace] at hrun hwalk
      simp only [String.append_assoc, String.utf8ByteSize_append] at hbump hrun
      refine ⟨_, ?_, .cut hstops hs ha hfirst hpieces hwalk⟩
      rw [htext, run_of_bump_eq_some htake hbump, hrun]
      rfl

/-- **The cursor cuts at the separators outside parentheses, and there only.**  Separators are
characters of one byte, and none of them is a parenthesis.  Then any text is walked to its end, the
segments and the separators between them are the text, the segments are its pieces, and the cuts
stand in order at the separators in front of which the parentheses of the whole text are closed,
each at a boundary of characters. -/
theorem run_cuts_iff (text : String) :
    ∃ turns, run (stops.map Char.toUInt8) ⟨text, 0⟩ = some turns ∧
      turns.flatMap Turn.bytes = utf8Bytes text ∧
      turns.map (·.segment.toList) = pieces (stops.contains ·) text.toList ∧
      (cuts turns).Pairwise (· < ·) ∧
      (∀ place, place ∈ cuts turns ↔ ∃ before, IsCut (stops.contains ·) text.toList before ∧
        place = (String.ofList before).utf8ByteSize) ∧
      ∀ place ∈ cuts turns, String.Pos.Raw.IsValid text ⟨place⟩ := by
  obtain ⟨turns, hrun, hwalk⟩ := exists_run hstops text.toList ""
  have hbytes := hwalk.bytes
  rw [String.ofList_toList] at hrun hbytes
  have hcuts : ∀ place, place ∈ cuts turns ↔ ∃ before,
      IsCut (stops.contains ·) text.toList before ∧
        place = (String.ofList before).utf8ByteSize := by
    simpa using hwalk.cuts_iff
  refine ⟨turns, by simpa using hrun, hbytes, hwalk.segments, hwalk.increasing, hcuts, ?_⟩
  intro place hplace
  obtain ⟨before, ⟨c, after, heq, -, -⟩, rfl⟩ := (hcuts place).1 hplace
  have htext : text = String.ofList before ++ String.ofList (c :: after) := by
    rw [← String.ofList_append, ← heq, String.ofList_toList]
  rw [htext]
  exact isValid_append _ _

end Scanner

end

/-- Characters of several bytes, a group, a stray parenthesis, an empty segment and an open group. -/
def oddText : String := "é)&a(&)b€&&(c&"

theorem Scanner.run_cuts_iff_odd :
    (∀ c ∈ ['&', ','], IsAscii c ∧ ¬ IsParenthesis c) ∧
      ∃ turns, run (['&', ','].map Char.toUInt8) ⟨oddText, 0⟩ = some turns ∧
        turns.map (·.segment.toList) = ["é)".toList, "a(&)b€".toList, [], "(c&".toList] ∧
        12 ∈ cuts turns ∧ String.Pos.Raw.IsValid oddText ⟨12⟩ := by
  have hstops : ∀ c ∈ ['&', ','], IsAscii c ∧ ¬ IsParenthesis c := by
    simp [IsParenthesis, IsAscii]
  obtain ⟨turns, hrun, -, hsegments, -, hcuts, hvalid⟩ := run_cuts_iff hstops oddText
  have hcut : IsCut (['&', ','].contains ·) oddText.toList "é)&a(&)b€".toList :=
    ⟨'&', "&(c&".toList, by decide, by decide, by decide⟩
  have hmem : 12 ∈ cuts turns := (hcuts 12).2 ⟨_, hcut, by decide⟩
  exact ⟨hstops, turns, hrun, hsegments.trans (by decide), hmem, hvalid 12 hmem⟩

end OData.Query
