/-
Numbers in a query, and the counts that are made of them.

A count is a word of 64 bits, and the text of a number may be longer than that: it may begin with
any number of zeros, or write a number that no word holds.  A limit that is too large for a word is
read as no limit, which comes to the same, since no list is that long.  A start that is too large is
read as none as well, and that shows the front of the list instead of nothing.

Strict reading looks at the same texts with a grammar of its own, in which a number may have a plus
sign.  It therefore accepts texts that are not read as the number which they write.

Main definitions:

* `Query.IsNumeral`, `Query.numeralValue` — texts of digits, and the numbers that they write;
* `Query.windowQuery` — a query for a window, given the texts of its two numbers;
* `Query.WritesNumber` — the texts that write a number: digits, with or without a plus sign.

Main results:

* `Query.parse_windowQuery` — what is read of a query for a window;
* `Query.window_windowQuery_iff` — **when the window is the one that the numbers ask for**;
* `Query.WritesNumber.unique` — a text writes one number at most;
* `Query.isStrictCount_iff` — strict reading accepts what writes a number of 64 bits;
* `Query.parseStrict_counts` — **which of the numbers that strict reading accepts are understood**.
-/

import OData.Proofs.Query.Spelling
import OData.Request.Window

set_option relaxedAutoImplicit false
set_option autoImplicit false

namespace OData.Query

open Text

/-! ### Numerals -/

/-- A text of digits and nothing else. -/
structure IsNumeral (text : List Char) : Prop where
  ne_nil : text ≠ []
  isDigit : ∀ c ∈ text, c.isDigit = true

theorem isNumeral_iff {text : List Char} :
    IsNumeral text ↔ (!text.isEmpty && text.all Char.isDigit) = true := by
  rw [Bool.and_eq_true, List.all_eq_true]
  exact ⟨fun h => ⟨by simpa using h.ne_nil, h.isDigit⟩, fun ⟨hne, h⟩ => ⟨by simpa using hne, h⟩⟩

instance (text : List Char) : Decidable (IsNumeral text) := decidable_of_iff' _ isNumeral_iff

/-- The number that a text of digits writes; zeros in front of it do not count. -/
def numeralValue (text : List Char) : Nat := Nat.ofDigitChars 10 text 0

namespace IsNumeral

variable {text : List Char}

/-- Digits are read as their number if it is a word of 64 bits. -/
theorem readCount_eq (h : IsNumeral text) :
    readCount text = if numeralValue text < countLimit then some (numeralValue text) else none :=
  readCount_of_isDigit h.ne_nil h.isDigit

theorem sound_clause (h : IsNumeral text) (option : SystemOption) :
    Clause.Sound ⟨option, [text]⟩ where
  ne_nil := List.cons_ne_nil _ _
  isMember m hm := List.mem_singleton.1 hm ▸ isMember_of_isDigit h.ne_nil h.isDigit
  count _ := by simp [Clause.value]

/-- Digits do not begin with a sign. -/
theorem head?_ne_plus (h : IsNumeral text) : text.head? ≠ some '+' := by
  intro hhead
  exact absurd (h.isDigit '+' (List.mem_of_mem_head? hhead)) (by decide)

end IsNumeral

/-! ### Windows of any size -/

/-- A query for a window, given the texts of its two numbers. -/
def windowQuery (skip top : String) : String := "$skip=" ++ skip ++ "&$top=" ++ top

theorem joined_windowQuery (skip top : String) :
    Joined (· == '&')
      ([⟨.skip, [skip.toList]⟩, ⟨.top, [top.toList]⟩].map Clause.text)
      (windowQuery skip top).toList := by
  have htext : (windowQuery skip top).toList
      = Clause.text ⟨.skip, [skip.toList]⟩ ++ '&' :: Clause.text ⟨.top, [top.toList]⟩ := by
    have hskip : "$skip=".toList = SystemOption.skip.label ++ ['='] := rfl
    have htop : "&$top=".toList = '&' :: (SystemOption.top.label ++ ['=']) := rfl
    simp [windowQuery, hskip, htop, Clause.text, Clause.value]
  rw [htext]
  exact .cons rfl (.single _)

/-- What is read of a query for a window: a number that no word of 64 bits holds is left out. -/
theorem parse_windowQuery {skip top : String} (hskip : IsNumeral skip.toList)
    (htop : IsNumeral top.toList) :
    Options.parse (windowQuery skip top)
      = { skip := (readCount skip.toList).getD 0, top := readLimit top.toList } := by
  have hsound : ∀ c ∈ [(⟨.skip, [skip.toList]⟩ : Clause), ⟨.top, [top.toList]⟩], c.Sound := by
    simp [hskip.sound_clause, htop.sound_clause]
  rw [Options.parse, ofAssignments_of_joined (joined_windowQuery skip top) hsound]
  simp [Options.ofClauses, membersOf, Clause.value, readTerms]

/-- A limit that no word of 64 bits holds is none, and cuts nothing off a list that can be
counted. -/
theorem window_readLimit {α : Type} {items : List α} (hlength : items.length < countLimit)
    {top : List Char} (htop : IsNumeral top) (hpos : 0 < numeralValue top) (skip : Nat) :
    window items skip (readLimit top) = (items.drop skip).take (numeralValue top) := by
  rw [readLimit, htop.readCount_eq]
  by_cases hread : numeralValue top < countLimit
  · rw [if_pos hread, Option.filter_some, if_pos (decide_eq_true hpos), window_some]
  · rw [if_neg hread, Option.filter_none, window_none, List.take_of_length_le]
    rw [List.length_drop]
    omega

/-- **The window is the one that the numbers ask for** exactly if the start is a word of 64 bits, or
if there is nothing to show.  A start that no word holds shows the front of the list. -/
theorem window_windowQuery_iff {α : Type} {items : List α} (hlength : items.length < countLimit)
    {skip top : String} (hskip : IsNumeral skip.toList) (htop : IsNumeral top.toList)
    (hpos : 0 < numeralValue top.toList) :
    window items (Options.parse (windowQuery skip top)).skip
        (Options.parse (windowQuery skip top)).top
      = (items.drop (numeralValue skip.toList)).take (numeralValue top.toList) ↔
    numeralValue skip.toList < countLimit ∨ items = [] := by
  rw [parse_windowQuery hskip htop, window_readLimit hlength htop hpos, hskip.readCount_eq]
  by_cases hread : numeralValue skip.toList < countLimit
  · simp [hread]
  · -- the list is shown from its front, and it should not be shown at all
    have hbehind : items.drop (numeralValue skip.toList) = [] :=
      List.drop_eq_nil_of_le (by omega)
    have hne : numeralValue top.toList ≠ 0 := Nat.pos_iff_ne_zero.1 hpos
    simp [hread, hbehind, hne]

/-! ### Strict reading -/

/-- A text writes a number: digits, which may stand behind a plus sign. -/
inductive WritesNumber : List Char → Nat → Prop
  | plain {digits : List Char} : IsNumeral digits → WritesNumber digits (numeralValue digits)
  | signed {digits : List Char} :
      IsNumeral digits → WritesNumber ('+' :: digits) (numeralValue digits)

/-- A text writes one number at most. -/
theorem WritesNumber.unique {text : List Char} {n m : Nat} (h : WritesNumber text n)
    (h' : WritesNumber text m) : n = m := by
  cases h with
  | plain hdigits =>
      cases h' with
      | plain => rfl
      | signed => exact absurd rfl hdigits.head?_ne_plus
  | signed =>
      cases h' with
      | plain hdigits => exact absurd rfl hdigits.head?_ne_plus
      | signed => rfl

/-- Strict reading accepts what writes a number of 64 bits. -/
theorem isStrictCount_iff {value : List Char} :
    isStrictCount value = true ↔ ∃ n < countLimit, WritesNumber (trim value) n := by
  have hvalue : ∀ digits, digitsValue digits = numeralValue digits := fun _ => rfl
  rw [isStrictCount]
  constructor
  · intro h
    split at h
    · next rest hsign =>
        rw [Bool.and_eq_true, ← isNumeral_iff, decide_eq_true_iff] at h
        exact ⟨numeralValue rest, h.2, hsign ▸ .signed h.1⟩
    · rw [Bool.and_eq_true, ← isNumeral_iff, decide_eq_true_iff] at h
      exact ⟨_, h.2, .plain h.1⟩
  · rintro ⟨n, hn, hwrites⟩
    generalize trim value = text at hwrites ⊢
    cases hwrites with
    | signed hdigits =>
        simp only
        rw [Bool.and_eq_true, ← isNumeral_iff, decide_eq_true_iff]
        exact ⟨hdigits, hn⟩
    | plain hdigits =>
        split
        · exact absurd rfl hdigits.head?_ne_plus
        · rw [Bool.and_eq_true, ← isNumeral_iff, decide_eq_true_iff]
          exact ⟨hdigits, hn⟩

/-- A number of 64 bits is read as such unless it has a sign. -/
theorem WritesNumber.readCount_eq {value : List Char} {n : Nat}
    (h : WritesNumber (trim value) n) (hn : n < countLimit) :
    readCount value = if (trim value).head? = some '+' then none else some n := by
  rw [← readCount_trim]
  generalize trim value = text at h ⊢
  cases h with
  | plain hdigits => rw [hdigits.readCount_eq, if_pos hn, if_neg hdigits.head?_ne_plus]
  | signed hdigits =>
      have hplus : isBlank '+' = false := rfl
      simp [readCount, trim_cons hplus]

theorem WritesNumber.readLimit_eq {value : List Char} {n : Nat}
    (h : WritesNumber (trim value) n) (hn : n < countLimit) :
    readLimit value
      = if (trim value).head? = some '+' ∨ n = 0 then none else some n := by
  rw [readLimit, h.readCount_eq hn]
  by_cases hsign : (trim value).head? = some '+'
  · simp [hsign]
  · by_cases hzero : n = 0
    · simp [hsign, hzero]
    · simp [hsign, hzero, Nat.pos_of_ne_zero hzero]

/-- What strict reading accepts is read as it is otherwise, and has no assignment at fault. -/
theorem parseStrict_eq_ok_iff {raw : String} {options : Options} :
    Options.parseStrict raw = .ok options ↔
      options = .parse raw ∧ ∀ pair ∈ assignments raw.toList, isMalformed pair = false := by
  rw [Options.parseStrict]
  cases hfind : (assignments raw.toList).find? isMalformed with
  | none =>
      have hsound : ∀ pair ∈ assignments raw.toList, isMalformed pair = false := by
        intro pair hpair
        simpa using List.find?_eq_none.1 hfind pair hpair
      constructor
      · intro h
        exact ⟨(Except.ok.inj h).symm, hsound⟩
      · intro h
        exact h.1 ▸ rfl
  | some pair =>
      obtain ⟨name, value⟩ := pair
      constructor
      · intro h
        cases h
      · rintro ⟨-, hsound⟩
        have hmalformed := List.find?_some hfind
        rw [hsound _ (List.mem_of_find?_eq_some hfind)] at hmalformed
        cases hmalformed

/-- A count that strict reading has accepted is a number of 64 bits. -/
theorem exists_writesNumber {raw : String} {options : Options}
    (h : Options.parseStrict raw = .ok options) {option : SystemOption}
    (hcount : option = .skip ∨ option = .top) {value : List Char}
    (hvalue : firstValue option (assignments raw.toList) = some value) :
    ∃ n < countLimit, WritesNumber (trim value) n := by
  obtain ⟨pair, hpair, rfl⟩ := Option.map_eq_some_iff.1 hvalue
  have hname : SystemOption.ofName? pair.1 = some option := by simpa using List.find?_some hpair
  have hsound := (parseStrict_eq_ok_iff.1 h).2 pair (List.mem_of_find?_eq_some hpair)
  refine isStrictCount_iff.1 ?_
  rcases hcount with rfl | rfl <;> simpa [isMalformed, hname] using hsound

/-- A start that writes a number of 64 bits is read as that number if that is zero or has no
sign. -/
theorem WritesNumber.skip_parse_iff {raw : String} {value : List Char} {n : Nat}
    (h : WritesNumber (trim value) n) (hn : n < countLimit)
    (hvalue : firstValue .skip (assignments raw.toList) = some value) :
    (Options.parse raw).skip = n ↔ n = 0 ∨ (trim value).head? ≠ some '+' := by
  have hskip : (Options.parse raw).skip = if (trim value).head? = some '+' then 0 else n := by
    rw [Options.parse, Options.ofAssignments, hvalue, Option.bind_some, h.readCount_eq hn]
    split <;> rfl
  rw [hskip]
  by_cases hsign : (trim value).head? = some '+'
  · simp [hsign, eq_comm]
  · simp [hsign]

/-- A limit that writes a number of 64 bits is read as that number, zero being no limit, if that is
zero or has no sign. -/
theorem WritesNumber.top_parse_iff {raw : String} {value : List Char} {n : Nat}
    (h : WritesNumber (trim value) n) (hn : n < countLimit)
    (hvalue : firstValue .top (assignments raw.toList) = some value) :
    (Options.parse raw).top = (if n = 0 then none else some n) ↔
      n = 0 ∨ (trim value).head? ≠ some '+' := by
  have htop : (Options.parse raw).top
      = if (trim value).head? = some '+' ∨ n = 0 then none else some n := by
    rw [Options.parse, Options.ofAssignments, hvalue, Option.bind_some, h.readLimit_eq hn]
  rw [htop]
  by_cases hzero : n = 0
  · simp [hzero]
  · by_cases hsign : (trim value).head? = some '+'
    · simp [hzero, hsign]
    · simp [hzero, hsign]

/-- **Which of the numbers that strict reading accepts are understood.**  A count that is set is a
number of 64 bits, and it is read as that number, zero being no limit, exactly if it is zero or has
no sign.  A count that is not set is none. -/
theorem parseStrict_counts {raw : String} {options : Options}
    (h : Options.parseStrict raw = .ok options) :
    (∀ value, firstValue .skip (assignments raw.toList) = some value →
      ∃ n < countLimit, WritesNumber (trim value) n ∧
        (options.skip = n ↔ n = 0 ∨ (trim value).head? ≠ some '+')) ∧
    (∀ value, firstValue .top (assignments raw.toList) = some value →
      ∃ n < countLimit, WritesNumber (trim value) n ∧
        (options.top = (if n = 0 then none else some n) ↔
          n = 0 ∨ (trim value).head? ≠ some '+')) ∧
    (firstValue .skip (assignments raw.toList) = none → options.skip = 0) ∧
    (firstValue .top (assignments raw.toList) = none → options.top = none) := by
  obtain ⟨rfl, -⟩ := parseStrict_eq_ok_iff.1 h
  refine ⟨?_, ?_, ?_, ?_⟩
  · intro value hvalue
    obtain ⟨n, hn, hwrites⟩ := exists_writesNumber h (.inl rfl) hvalue
    exact ⟨n, hn, hwrites, hwrites.skip_parse_iff hn hvalue⟩
  · intro value hvalue
    obtain ⟨n, hn, hwrites⟩ := exists_writesNumber h (.inr rfl) hvalue
    exact ⟨n, hn, hwrites, hwrites.top_parse_iff hn hvalue⟩
  · intro hnone
    rw [Options.parse, Options.ofAssignments, hnone]
    rfl
  · intro hnone
    rw [Options.parse, Options.ofAssignments, hnone]
    rfl

/-! ### Numbers at their limits -/

theorem window_windowQuery_iff_shelf :
    (['a', 'b', 'c'].length < countLimit ∧ IsNumeral "0002".toList ∧
      IsNumeral "18446744073709551616".toList ∧
      0 < numeralValue "18446744073709551616".toList) ∧
    window ['a', 'b', 'c'] (Options.parse (windowQuery "0002" "18446744073709551616")).skip
        (Options.parse (windowQuery "0002" "18446744073709551616")).top
      = (['a', 'b', 'c'].drop (numeralValue "0002".toList)).take
          (numeralValue "18446744073709551616".toList) :=
  have hskip : IsNumeral "0002".toList := by decide
  have htop : IsNumeral "18446744073709551616".toList := by decide
  ⟨⟨by decide, hskip, htop, by decide⟩,
    (window_windowQuery_iff (by decide) hskip htop (by decide)).2 (.inl (by decide))⟩

/-- A start behind all words of 64 bits shows the front of the list. -/
theorem window_behind_words :
    (['a', 'b', 'c'].length < countLimit ∧ IsNumeral "18446744073709551616".toList ∧
      IsNumeral "1".toList ∧ 0 < numeralValue "1".toList) ∧
    window ['a', 'b', 'c'] (Options.parse (windowQuery "18446744073709551616" "1")).skip
        (Options.parse (windowQuery "18446744073709551616" "1")).top = ['a'] ∧
    (['a', 'b', 'c'].drop (numeralValue "18446744073709551616".toList)).take
        (numeralValue "1".toList) = [] := by
  have hskip : IsNumeral "18446744073709551616".toList := by decide
  have htop : IsNumeral "1".toList := by decide
  refine ⟨⟨by decide, hskip, htop, by decide⟩, ?_, ?_⟩
  · rw [parse_windowQuery hskip htop]
    decide
  · rw [List.drop_eq_nil_of_le (by decide), List.take_nil]

/-- Zeros before a number, blanks around a name, the largest word and a second start. -/
def largestQuery : String := "$skip= 007 & $TOP =18446744073709551615&$skip=3"

theorem parseStrict_counts_largest :
    Options.parseStrict largestQuery = .ok (.parse largestQuery) ∧
      (∃ n < countLimit, WritesNumber (trim "007".toList) n ∧
        ((Options.parse largestQuery).skip = n ↔
          n = 0 ∨ (trim "007".toList).head? ≠ some '+')) ∧
      ∃ n < countLimit, WritesNumber (trim "18446744073709551615".toList) n ∧
        ((Options.parse largestQuery).top = (if n = 0 then none else some n) ↔
          n = 0 ∨ (trim "18446744073709551615".toList).head? ≠ some '+') := by
  have h : Options.parseStrict largestQuery = .ok (.parse largestQuery) := rfl
  obtain ⟨hskip, htop, -, -⟩ := parseStrict_counts h
  exact ⟨h, hskip _ (by decide), htop _ (by decide)⟩

/-- A number with a plus sign is accepted and not understood. -/
theorem parseStrict_signed :
    Options.parseStrict "$skip=+5&$top=+5" = .ok {} ∧
      firstValue .skip (assignments "$skip=+5&$top=+5".toList) = some "+5".toList ∧
      firstValue .top (assignments "$skip=+5&$top=+5".toList) = some "+5".toList ∧
      WritesNumber (trim "+5".toList) 5 :=
  ⟨rfl, by decide, by decide, .signed (by decide)⟩

end OData.Query
