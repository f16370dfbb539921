/-
Reading what has been written: queries of any depth and width.

A tree of options is written as a text in many ways.  Whichever is chosen, reading the text and then
the text in each pair of parentheses gives the tree back.  The two readings of clauses are settled
in `OData.Proofs.Query.Clause`; what is left is that the parts of a written tree are of the kind
that those readings want, and that the text in a term's parentheses comes out of the term unchanged.

* `Query.readCount_toDigits`, `Query.readTerm_group` — what is read from a count and from a term;
* `Query.readTerms_eq` — terms of different relationships are read in order;
* `Query.OptionTree.ofOptions_parse` — **reading a written tree gives the tree**.
-/

import OData.Proofs.Query.Tree
import OData.Proofs.Text.Trim

set_option relaxedAutoImplicit false
set_option autoImplicit false

namespace OData.Query

open Text

/-! ### Counts -/

theorem isBlank_of_isDigit {c : Char} (h : c.isDigit = true) : isBlank c = false := by
  have hbounds := Char.isDigit_iff_toNat.1 h
  have hzero : '0'.toNat = 48 := rfl
  have hnine : '9'.toNat = 57 := rfl
  simp only [isBlank, Bool.or_eq_false_iff, Bool.and_eq_false_iff, decide_eq_false_iff_not,
    beq_eq_false_iff_ne]
  omega

/-- A digit is none of the characters with a meaning. -/
theorem plain_of_isDigit {c : Char} (h : c.isDigit = true) :
    c ∉ ['(', ')', ',', ';', '&', '=', '$'] := by
  intro hc
  simp only [List.mem_cons, List.not_mem_nil, or_false] at hc
  rcases hc with rfl | rfl | rfl | rfl | rfl | rfl | rfl <;> exact absurd h (by decide)

theorem isDigit_of_mem_toDigits {n : Nat} {c : Char} (hc : c ∈ Nat.toDigits 10 n) :
    c.isDigit = true :=
  Nat.isDigit_of_mem_toDigits (by decide) (by decide) hc

theorem isTrimmed_of_isDigit {digits : List Char} (h : ∀ c ∈ digits, c.isDigit = true) :
    IsTrimmed digits :=
  isTrimmed_of_forall fun c hc => isBlank_of_isDigit (h c hc)

/-- Digits are read as the number that they write, unless it is too large for a count. -/
theorem readCount_of_isDigit {digits : List Char} (hne : digits ≠ [])
    (h : ∀ c ∈ digits, c.isDigit = true) :
    readCount digits
      = if digitsValue digits < countLimit then some (digitsValue digits) else none := by
  have hdigits : (digits ++ []).takeWhile Char.isDigit = digits ++ [].takeWhile Char.isDigit :=
    List.takeWhile_append_of_pos h
  rw [List.append_nil, List.takeWhile_nil, List.append_nil] at hdigits
  rw [readCount, (isTrimmed_of_isDigit h).trim_eq, hdigits, if_neg (by simpa using hne)]

/-- The digits of a number are read as that number, unless it is too large for a count. -/
theorem readCount_digits (n : Nat) :
    readCount (Nat.toDigits 10 n) = if n < countLimit then some n else none := by
  have hvalue : digitsValue (Nat.toDigits 10 n) = n := Nat.ofDigitChars_ten_toDigits
  rw [readCount_of_isDigit Nat.toDigits_ne_nil fun _ hc => isDigit_of_mem_toDigits hc, hvalue]

theorem readCount_toDigits {n : Nat} (h : n < countLimit) :
    readCount (Nat.toDigits 10 n) = some n :=
  (readCount_digits n).trans (if_pos h)

/-! ### Members -/

/-- A text of plain characters is in one piece. -/
theorem isWhole_of_plain {cs : List Char}
    (h : ∀ c ∈ cs, c ∉ ['(', ')', ',', ';', '&', '=', '$']) : IsWhole isNestedSeparator cs := by
  refine .of_forall (fun c hc => ?_) fun c hc => ?_
  · have := h c hc
    simp only [List.mem_cons, not_or] at this
    simp [IsParenthesis, this]
  · have := h c hc
    simp only [List.mem_cons, not_or] at this
    simp [isNestedSeparator, this]

theorem isMember_of_plain {cs : List Char} (hne : cs ≠ []) (htrim : IsTrimmed cs)
    (h : ∀ c ∈ cs, c ∉ ['(', ')', ',', ';', '&', '=', '$']) : IsMember cs where
  whole := isWhole_of_plain h
  ne_nil := hne
  trimmed := htrim
  unnamed hhead := h _ (List.mem_of_mem_head? hhead) (by simp)

theorem IsWord.isMember {name : String} (h : IsWord name) : IsMember name.toList :=
  isMember_of_plain h.ne_nil h.trimmed h.plain

theorem isMember_of_isDigit {digits : List Char} (hne : digits ≠ [])
    (h : ∀ c ∈ digits, c.isDigit = true) : IsMember digits :=
  isMember_of_plain hne (isTrimmed_of_isDigit h) fun c hc => plain_of_isDigit (h c hc)

theorem isMember_toDigits (n : Nat) : IsMember (Nat.toDigits 10 n) :=
  isMember_of_isDigit Nat.toDigits_ne_nil fun _ hc => isDigit_of_mem_toDigits hc

/-- A name with a balanced text in parentheses behind it is a member, whatever that text holds. -/
theorem IsWord.isMember_group {name : String} (h : IsWord name) {content : List Char}
    (hcontent : Balanced 0 content) :
    IsMember (name.toList ++ '(' :: (content ++ [')'])) where
  whole := h.isMember.whole.append (.group hcontent rfl)
  ne_nil := by simp
  trimmed := by
    have hclose : IsTrimmed [')'] := by decide
    simpa using h.trimmed.between h.ne_nil hclose (by simp) ('(' :: content)
  unnamed := by
    have hhead := h.isMember.unnamed
    rwa [List.head?_append, Option.or_of_isSome (by simpa using h.ne_nil)]

/-! ### Terms -/

theorem IsWord.readTerm_bare {name : String} (h : IsWord name) :
    readTerm name.toList = some ⟨name, ""⟩ := by
  have hopen : '(' ∉ name.toList := fun hmem => h.plain _ hmem (by simp)
  simp [readTerm, h.trimmed.trim_eq, splitOnce_eq_none hopen, h.ne_nil, groupContent,
    groupContentFrom]

/-- The text in a term's parentheses comes out of the term trimmed. -/
theorem IsWord.readTerm_group {name : String} (h : IsWord name) {content : List Char}
    (hcontent : Balanced 0 content) :
    readTerm (name.toList ++ '(' :: (content ++ [')']))
      = some ⟨name, String.ofList (trim content)⟩ := by
  have hopen : '(' ∉ name.toList := fun hmem => h.plain _ hmem (by simp)
  have hgroup : groupContent (content ++ [')']) = content := hcontent.groupContent_append []
  have hterm := (h.isMember_group hcontent).trimmed.trim_eq
  simp only [readTerm, hterm, splitOnce_append hopen, Option.getD_some, h.trimmed.trim_eq, hgroup,
    String.ofList_toList]
  rw [if_neg (by simpa using h.ne_nil)]

theorem mergeItem_eq_append {item : ExpandItem} {items : List ExpandItem}
    (h : item.name ∉ items.map (·.name)) : mergeItem item items = items ++ [item] := by
  induction items with
  | nil => rfl
  | cons other items ih =>
      rw [List.map_cons, List.mem_cons, not_or] at h
      rw [mergeItem, if_neg (Ne.symm h.1), ih h.2, List.cons_append]

theorem foldl_mergeItem_eq_append {new items : List ExpandItem}
    (h : ((items ++ new).map (·.name)).Nodup) :
    new.foldl (fun items item => mergeItem item items) items = items ++ new := by
  induction new generalizing items with
  | nil => simp
  | cons item new ih =>
      have hnew : item.name ∉ items.map (·.name) := by
        rw [List.map_append, List.map_cons, List.nodup_append] at h
        exact fun hmem => h.2.2 _ hmem _ List.mem_cons_self rfl
      rw [List.foldl_cons, mergeItem_eq_append hnew, ih (by simpa using h)]
      simp

/-- Terms of different relationships are read in order. -/
theorem readTerms_eq {terms : List (List Char)}
    (h : ((terms.filterMap readTerm).map (·.name)).Nodup) :
    readTerms terms = terms.filterMap readTerm := by
  rw [readTerms, foldl_mergeItem_eq_append (by simpa using h), List.nil_append]

/-! ### Clauses of a tree -/

namespace OptionTree

theorem find?_filterMap_clause? (members : SystemOption → List (List Char))
    (option : SystemOption) (options : List SystemOption) :
    ((options.filterMap (clause? members)).find? fun c => c.option = option)
      = if option ∈ options then clause? members option else none := by
  induction options with
  | nil => rfl
  | cons o options ih =>
      by_cases hempty : members o = []
      · have hnone : clause? members o = none := if_pos hempty
        rw [List.filterMap_cons_none hnone, ih]
        by_cases ho : option = o
        · simp [ho, hnone]
        · simp [ho]
      · have hsome : clause? members o = some ⟨o, members o⟩ := if_neg hempty
        rw [List.filterMap_cons_some hsome, List.find?_cons, ih]
        by_cases ho : option = o
        · simp [ho, hsome]
        · simp [ho, Ne.symm ho]

/-- Every option has the clause of its members. -/
theorem find?_clauses (members : SystemOption → List (List Char)) (option : SystemOption) :
    ((clauses members).find? fun c => c.option = option) = clause? members option := by
  rw [clauses, find?_filterMap_clause?, if_pos]
  cases option <;> decide

theorem membersOf_clauses (members : SystemOption → List (List Char)) (option : SystemOption) :
    membersOf option (clauses members) = members option := by
  rw [membersOf, find?_clauses, clause?]
  by_cases h : members option = [] <;> simp [h]

theorem nodup_option_clauses (members : SystemOption → List (List Char)) :
    ((clauses members).map (·.option)).Nodup := by
  have hfilter : ∀ options : List SystemOption,
      (options.filterMap (clause? members)).map (·.option)
        = options.filter fun o => members o ≠ [] := by
    intro options
    induction options with
    | nil => rfl
    | cons o options ih =>
        by_cases h : members o = [] <;> simp [clause?, h, ih]
  have hnodup : [SystemOption.skip, .top, .select, .expand].Nodup := by decide
  rw [clauses, hfilter]
  exact hnodup.sublist List.filter_sublist

theorem sound_clauses {skip : Nat} {top : Option Nat} {select : List String}
    {terms : List (List Char)} (hselect : ∀ path ∈ select, IsWord path)
    (hterms : ∀ t ∈ terms, IsMember t) :
    ∀ c ∈ clauses (memberTexts skip top select terms), c.Sound := by
  intro c hc
  obtain ⟨option, -, hoption⟩ := List.mem_filterMap.1 hc
  obtain ⟨hne, rfl⟩ : memberTexts skip top select terms option ≠ [] ∧
      ⟨option, memberTexts skip top select terms option⟩ = c := by
    simpa [clause?] using hoption
  refine ⟨hne, fun m hm => ?_, fun hcount => ?_⟩
  · cases option with
    | skip =>
        obtain ⟨-, rfl⟩ : skip ≠ 0 ∧ m = Nat.toDigits 10 skip := by
          simpa [memberTexts] using hm
        exact isMember_toDigits skip
    | top =>
        obtain ⟨n, -, rfl⟩ := List.mem_map.1 hm
        exact isMember_toDigits n
    | select =>
        obtain ⟨path, hpath, rfl⟩ := List.mem_map.1 hm
        exact (hselect path hpath).isMember
    | expand => exact hterms m hm
  · rcases hcount with rfl | rfl
    · by_cases h : skip = 0 <;> simp_all [memberTexts, Clause.value]
    · cases top <;> simp_all [memberTexts, Clause.value]

/-- The clauses of some options set those options. -/
theorem ofClauses_clauses {skip : Nat} {top : Option Nat} (hskip : skip < countLimit)
    (htop : ∀ n ∈ top, 0 < n ∧ n < countLimit) (select : List String) (terms : List (List Char)) :
    Options.ofClauses (clauses (memberTexts skip top select terms))
      = { skip, top, expand := readTerms terms, select } := by
  have hskipped : ((clause? (memberTexts skip top select terms) .skip).bind
      fun c => readCount c.value).getD 0 = skip := by
    by_cases h : skip = 0
    · simp [clause?, memberTexts, h]
    · simp [clause?, memberTexts, h, Clause.value, readCount_toDigits hskip]
  have hlimited : ((clause? (memberTexts skip top select terms) .top).bind
      fun c => readLimit c.value) = top := by
    cases top with
    | none => simp [clause?, memberTexts]
    | some n =>
        obtain ⟨hpos, hlt⟩ := htop n rfl
        simp [clause?, memberTexts, Clause.value, readLimit, readCount_toDigits hlt, hpos]
  simp only [Options.ofClauses, find?_clauses, membersOf_clauses]
  rw [hskipped, hlimited]
  simp [memberTexts]

/-! ### The round trip -/

mutual

/-- A written tree consists of clauses that set its options. -/
theorem Writes.exists_clauses {isSeparator : Char → Bool} {tree : OptionTree} {text : List Char} :
    Writes isSeparator tree text → tree.Valid →
      ∃ written : List Clause, Joined isSeparator (written.map Clause.text) text ∧
        (∀ c ∈ written, c.Sound) ∧ (written.map (·.option)).Nodup ∧
          ofOptions (.ofClauses written) = tree
  | @Writes.mk _ skip top select expand terms written text hterms hperm htext, hvalid => by
      cases hvalid with
      | mk hskip htop hselect hdistinct hwords htrees =>
          obtain ⟨hmembers, hread⟩ := hterms.readTerms hwords htrees
          have hnames : ((terms.filterMap readTerm).map (·.name)).Nodup := by
            rw [← hread, List.map_map] at hdistinct
            exact hdistinct
          -- the clauses of the text are those of the tree in another order
          refine ⟨written, htext, fun c hc => ?_, ?_, ?_⟩
          · exact sound_clauses hselect hmembers c (hperm.mem_iff.1 hc)
          · exact (hperm.map _).nodup_iff.2 (nodup_option_clauses ..)
          · rw [ofClauses_eq_of_perm hperm (nodup_option_clauses ..),
              ofClauses_clauses hskip htop, ofOptions, readTerms_eq hnames, hread]

/-- Written terms are members, and are read as the names and the trees that they write. -/
theorem WritesTerms.readTerms {expand : List (String × OptionTree)} {terms : List (List Char)} :
    WritesTerms expand terms → (∀ e ∈ expand, IsWord e.1) → (∀ e ∈ expand, e.2.Valid) →
      (∀ t ∈ terms, IsMember t) ∧
        (terms.filterMap readTerm).map (fun item => (item.name, ofItem item)) = expand
  | .nil, _, _ => ⟨by simp, rfl⟩
  | @WritesTerms.bare name rest terms hrest, hwords, htrees => by
      have hname : IsWord name := hwords _ List.mem_cons_self
      obtain ⟨hmembers, hread⟩ := hrest.readTerms (fun e he => hwords e (List.mem_cons_of_mem _ he))
        fun e he => htrees e (List.mem_cons_of_mem _ he)
      -- a term without parentheses stands for the options of the empty text
      have hempty : ofItem ⟨name, ""⟩ = empty := by
        rw [ofItem_eq]
        rfl
      constructor
      · intro t ht
        rcases List.mem_cons.1 ht with rfl | ht
        · exact hname.isMember
        · exact hmembers t ht
      · rw [List.filterMap_cons_some hname.readTerm_bare, List.map_cons, hread, hempty]
  -- the text in the parentheses has clauses of its own, and comes out of the term as it is
  | @WritesTerms.group name tree content rest terms hcontent hrest, hwords, htrees => by
      have hname : IsWord name := hwords _ List.mem_cons_self
      obtain ⟨hmembers, hread⟩ := hrest.readTerms (fun e he => hwords e (List.mem_cons_of_mem _ he))
        fun e he => htrees e (List.mem_cons_of_mem _ he)
      obtain ⟨written, hjoin, hsound, hdistinct, htree⟩ :=
        hcontent.exists_clauses (htrees _ List.mem_cons_self)
      have hbalanced : Balanced 0 content := balanced_of_joined hjoin hsound
      have htrim : IsTrimmed content := trimmed_of_joined hjoin hsound
      have hitem : ofItem ⟨name, String.ofList content⟩ = tree := by
        rw [ofItem_eq, ExpandItem.nested, Options.parseNested, String.toList_ofList,
          options_of_joined hjoin hsound hdistinct, htree]
      constructor
      · intro t ht
        rcases List.mem_cons.1 ht with rfl | ht
        · exact hname.isMember_group hbalanced
        · exact hmembers t ht
      · rw [List.filterMap_cons_some (hname.readTerm_group hbalanced), htrim.trim_eq, List.map_cons,
          hread, hitem]

end

/-- **Reading a written tree gives the tree**: the options at the top, the names of the terms in
their order, and in the parentheses of each term, at any depth, the tree that was written there.
Every tree has a text. -/
theorem ofOptions_parse (tree : OptionTree) :
    (∃ raw : String, Writes (· == '&') tree raw.toList) ∧
      ∀ raw : String, Writes (· == '&') tree raw.toList → tree.Valid →
        ofOptions (Options.parse raw) = tree := by
  constructor
  · obtain ⟨text, htext⟩ := @exists_writes (· == '&') '&' rfl tree
    exact ⟨String.ofList text, by rwa [String.toList_ofList]⟩
  · intro raw hraw hvalid
    obtain ⟨written, hjoin, hsound, -, htree⟩ := hraw.exists_clauses hvalid
    rw [Options.parse, ofAssignments_of_joined hjoin hsound, htree]

/-- A query with two levels of related records. -/
def twoLevels : OptionTree :=
  mk 1 none ["ID"] [("A", mk 0 none ["x"] [("B", mk 0 (some 2) [] [("C", empty)])]), ("C", empty)]

/-- A text of that query, with another separator at each level. -/
def twoLevelsText : String := "$expand=A($expand=B($expand=C(),$top=2);$select=x),C&$select=ID&$skip=1"

theorem valid_twoLevels : twoLevels.Valid := by
  have hword : ∀ name ∈ ["ID", "x", "A", "B", "C"], IsWord name := by
    intro name hname
    simp only [List.mem_cons, List.not_mem_nil, or_false] at hname
    rcases hname with rfl | rfl | rfl | rfl | rfl <;> decide
  have hempty : empty.Valid := .mk (by decide) (by simp) (by simp) (by simp) (by simp) (by simp)
  have hinner : Valid (mk 0 (some 2) [] [("C", empty)]) :=
    .mk (by decide) (by simp [countLimit]) (by simp) (by simp) (by simp [hword])
      (by simpa using hempty)
  have hmiddle : Valid (mk 0 none ["x"] [("B", mk 0 (some 2) [] [("C", empty)])]) :=
    .mk (by decide) (by simp) (by simp [hword]) (by simp) (by simp [hword]) (by simpa using hinner)
  exact .mk (by decide) (by simp) (by simp [hword]) (by simp) (by simp [hword])
    (by simp [hempty, hmiddle])

theorem writes_twoLevels : Writes (· == '&') twoLevels twoLevelsText.toList := by
  have hempty : Writes isNestedSeparator empty [] := .mk .nil (.refl _) .nil
  have hinner := @Writes.of_intercalate isNestedSeparator ',' rfl 0 (some 2) [] [("C", empty)] _
    (.group hempty .nil) _ (List.reverse_perm _)
  have hmiddle := @Writes.of_intercalate isNestedSeparator ';' rfl 0 none ["x"]
    [("B", mk 0 (some 2) [] [("C", empty)])] _ (.group hinner .nil) _ (List.reverse_perm _)
  have houter := @Writes.of_intercalate (· == '&') '&' rfl 1 none ["ID"]
    [("A", mk 0 none ["x"] [("B", mk 0 (some 2) [] [("C", empty)])]), ("C", empty)] _
    (.group hmiddle (.bare .nil)) _ (List.reverse_perm _)
  have htext : twoLevelsText = String.ofList _ := rfl
  rw [htext, String.toList_ofList]
  exact houter

theorem ofOptions_parse_twoLevels :
    Writes (· == '&') twoLevels twoLevelsText.toList ∧ twoLevels.Valid ∧
      ofOptions (Options.parse twoLevelsText) = twoLevels :=
  ⟨writes_twoLevels, valid_twoLevels,
    (ofOptions_parse twoLevels).2 twoLevelsText writes_twoLevels valid_twoLevels⟩

end OptionTree

end OData.Query
