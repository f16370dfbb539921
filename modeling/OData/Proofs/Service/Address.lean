/-
Addresses of records.

A record is addressed by its set and its key: the key stands in parentheses, in quotes and
parentheses, or behind a slash.  A path may have the base path in front of that, slashes around it
and blanks around those, none of which matters.  The first parenthesis of a path is looked for
before the first slash.  In parentheses a key may hold any parentheses and quotes of its own, then;
behind a slash, a key with an opening parenthesis is taken apart at it, and the front of the key is
taken for a part of the name of the set.  So the three forms lead to the same record exactly if the
key has no opening parenthesis, and the first two always do.

Main definitions:

* `Route.IsSetName`, `Route.IsRecordKey` — names and keys that can be written in an address;
* `Route.Form` — the three forms of an address;
* `Route.Frame` — what may stand around an address in a path.

Main results:

* `Route.localPath_path` — what stands around an address does not matter;
* `Route.entity?_key`, `Route.entity?_quoted` — a key is found without and with quotes;
* `Route.ofPath?_address_iff` — **an address leads to its record unless it has an opening
  parenthesis behind a slash**.
-/

import OData.Proofs.Query.Clause
import OData.Proofs.Text.Trim
import OData.Service.Route

set_option relaxedAutoImplicit false
set_option autoImplicit false

namespace OData.Route

open Text Query

/-! ### Addresses -/

/-- A name that can stand in front of a parenthesis and of a slash. -/
structure IsSetName (set : String) : Prop where
  ne_nil : set.toList ≠ []
  trimmed : IsTrimmed set.toList
  slash : '/' ∉ set.toList
  parenthesis : '(' ∉ set.toList

/-- A key that does not look like one in quotes.  A quote alone does not. -/
structure IsRecordKey (id : String) : Prop where
  ne_nil : id.toList ≠ []
  trimmed : IsTrimmed id.toList
  slash : '/' ∉ id.toList
  unquoted : id.toList.head? = some '\'' → id.toList.getLast? = some '\'' → id = "'"

/-- The ways to write a key behind the name of its set. -/
inductive Form where
  | parentheses
  | quotes
  | slash
deriving DecidableEq

/-- The address of a record. -/
def Form.text (form : Form) (set id : String) : List Char :=
  match form with
  | parentheses => set.toList ++ '(' :: (id.toList ++ [')'])
  | quotes => set.toList ++ '(' :: ('\'' :: (id.toList ++ ['\'']) ++ [')'])
  | slash => set.toList ++ '/' :: id.toList

/-- What may stand around an address: the base path in front of it, slashes around that, and blanks
around those. -/
structure Frame where
  based : Bool
  slashesBefore : List Char
  slashesAfter : List Char
  blanksBefore : List Char
  blanksAfter : List Char
  slash_before : ∀ c ∈ slashesBefore, c = '/'
  slash_after : ∀ c ∈ slashesAfter, c = '/'
  blank_before : AllBlank blanksBefore
  blank_after : AllBlank blanksAfter

namespace Frame

/-- An address with the base path in front of it, if the frame has it. -/
def basedText (frame : Frame) (text : List Char) : List Char :=
  if frame.based then basePath ++ text else text

/-- The path of an address in a frame. -/
def path (frame : Frame) (text : List Char) : String :=
  String.ofList (frame.blanksBefore ++ (frame.slashesBefore ++ frame.basedText text ++
    frame.slashesAfter ++ frame.blanksAfter))

end Frame

/-! ### What stands around an address -/

/-- A text with something else than slashes at its ends is what is left of it between slashes. -/
theorem trimSlashes_append {a m b : List Char} (ha : ∀ c ∈ a, c = '/') (hb : ∀ c ∈ b, c = '/')
    (hne : m ≠ []) (hfirst : m.head? ≠ some '/') (hlast : m.getLast? ≠ some '/') :
    trimSlashes (a ++ m ++ b) = m := by
  have hdrop : ∀ {s n : List Char}, (∀ c ∈ s, c = '/') → n.head? ≠ some '/' →
      (s ++ n).dropWhile (· == '/') = n := by
    intro s n hs hhead
    rw [List.dropWhile_append_of_pos fun c hc => by simp [hs c hc]]
    cases n with
    | nil => rfl
    | cons c n => exact List.dropWhile_cons_of_neg (by simpa using hhead)
  have hfront : (a ++ m ++ b).dropWhile (· == '/') = m ++ b := by
    rw [List.append_assoc]
    refine hdrop ha ?_
    rwa [List.head?_append, Option.or_of_isSome (by simpa using hne)]
  have hback : (m ++ b).reverse.dropWhile (· == '/') = m.reverse := by
    rw [List.reverse_append]
    exact hdrop (fun c hc => hb c (List.mem_reverse.1 hc)) (by rwa [List.head?_reverse])
  rw [trimSlashes, hfront, hback, List.reverse_reverse]

/-- A text that no trimming takes anything from: there are neither blanks nor slashes at its
ends. -/
structure IsBare (text : List Char) : Prop where
  ne_nil : text ≠ []
  trimmed : IsTrimmed text
  first : text.head? ≠ some '/'
  last : text.getLast? ≠ some '/'

theorem IsBare.basedText {text : List Char} (h : IsBare text) (frame : Frame) :
    IsBare (frame.basedText text) := by
  rw [Frame.basedText]
  split
  · have hall : basePath.all (! isBlank ·) = true := by decide
    have hplain : ∀ c ∈ basePath, isBlank c = false := by simpa using hall
    have hhead : (basePath ++ text).head? = some 'o' := rfl
    refine ⟨by simp [h.ne_nil], ?_, by simp [hhead], ?_⟩
    · simpa using h.trimmed.append_append hplain (b := []) (by simp)
    · rw [List.getLast?_append, Option.or_of_isSome (by simpa using h.ne_nil)]
      exact h.last
  · exact h

/-- **What stands around an address does not matter**, as long as the address does not begin with
the base path itself. -/
theorem localPath_path (frame : Frame) {text : List Char} (h : IsBare text)
    (hbase : ¬ basePath <+: text) : localPath (frame.path text).toList = text := by
  have hbased := h.basedText frame
  have hblank : ∀ {slashes : List Char}, (∀ c ∈ slashes, c = '/') →
      ∀ c ∈ slashes, isBlank c = false := by
    intro slashes hslashes c hc
    rw [hslashes c hc]
    rfl
  have htrimmed := hbased.trimmed.append_append (hblank frame.slash_before)
    (hblank frame.slash_after)
  have hbare : trimSlashes (trim (frame.path text).toList) = frame.basedText text := by
    rw [Frame.path, String.toList_ofList, frame.blank_before.trim_append_left,
      frame.blank_after.trim_append, htrimmed.trim_eq,
      trimSlashes_append frame.slash_before frame.slash_after hbased.ne_nil hbased.first
        hbased.last]
  rw [localPath, hbare, Frame.basedText]
  cases frame.based with
  | true => simp [List.isPrefixOf_iff_prefix]
  | false => simp [List.isPrefixOf_iff_prefix, hbase]

theorem IsSetName.isBare_append {set : String} (h : IsSetName set) {rest : List Char}
    (hne : rest ≠ []) (hlast : ∀ c ∈ rest.getLast?, isBlank c = false ∧ c ≠ '/') :
    IsBare (set.toList ++ rest) := by
  have hhead : (set.toList ++ rest).head? = set.toList.head? := by
    rw [List.head?_append, Option.or_of_isSome (by simpa using h.ne_nil)]
  have hend : (set.toList ++ rest).getLast? = rest.getLast? := by
    rw [List.getLast?_append, Option.or_of_isSome (by simpa using hne)]
  refine ⟨by simp [hne], ⟨fun c hc => ?_, fun c hc => ?_⟩, fun hslash => ?_, fun hslash => ?_⟩
  · rw [hhead] at hc
    exact h.trimmed.first c hc
  · rw [hend] at hc
    exact (hlast c hc).1
  · rw [hhead] at hslash
    exact h.slash (List.mem_of_mem_head? hslash)
  · rw [hend] at hslash
    exact (hlast '/' hslash).2 rfl

theorem IsSetName.isBare_group {set : String} (h : IsSetName set) (content : List Char) :
    IsBare (set.toList ++ '(' :: (content ++ [')'])) := by
  refine h.isBare_append (by simp) fun c hc => ?_
  obtain rfl : c = ')' := by simpa [List.getLast?_cons, eq_comm] using hc
  decide

/-- There are neither blanks nor slashes at the ends of an address. -/
theorem Form.isBare_text (form : Form) {set id : String} (hset : IsSetName set)
    (hid : IsRecordKey id) : IsBare (form.text set id) := by
  cases form with
  | parentheses => exact hset.isBare_group _
  | quotes => exact hset.isBare_group _
  | slash =>
      refine hset.isBare_append (by simp) fun c hc => ?_
      have hlast : c ∈ id.toList.getLast? := by
        rwa [List.getLast?_cons_of_ne_nil hid.ne_nil] at hc
      refine ⟨hid.trimmed.last c hlast, ?_⟩
      rintro rfl
      exact hid.slash (List.mem_of_mem_getLast? hlast)

/-- The base path has more slashes than an address. -/
theorem Form.not_basePath_prefix (form : Form) {set id : String} (hset : IsSetName set)
    (hid : IsRecordKey id) : ¬ basePath <+: form.text set id := by
  intro hprefix
  have htwo : basePath.count '/' = 2 := by decide
  have hle := hprefix.sublist.count_le '/'
  have hone : (form.text set id).count '/' ≤ 1 := by
    cases form <;> simp [text, List.count_eq_zero.2 hset.slash, List.count_eq_zero.2 hid.slash]
  omega

/-! ### Keys -/

theorem entity?_eq_some {set id : String} (hset : IsSetName set) (hid : IsRecordKey id)
    {text : List Char} (htext : unquoted (trim text) = id.toList) :
    entity? set.toList text = some (.entity set id) := by
  simp [entity?, htext, hset.ne_nil, hid.ne_nil, hid.slash]

/-- A key is found without quotes. -/
theorem entity?_key {set id : String} (hset : IsSetName set) (hid : IsRecordKey id) :
    entity? set.toList id.toList = some (.entity set id) := by
  refine entity?_eq_some hset hid ?_
  rw [hid.trimmed.trim_eq]
  unfold unquoted
  split
  · next rest hquote =>
      cases hlast : rest.getLast? with
      | none => simp [dropLast?, hlast]
      | some c =>
          have hc : c ≠ '\'' := by
            rintro rfl
            have hboth := hid.unquoted (by rw [hquote]; rfl) (by
              rw [hquote, List.getLast?_cons, hlast]
              rfl)
            rw [hboth] at hquote
            obtain rfl : rest = [] := (List.cons.inj hquote).2.symm
            cases hlast
          simp [dropLast?, hlast, hc]
  · rfl

/-- A key is found in quotes. -/
theorem entity?_quoted {set id : String} (hset : IsSetName set) (hid : IsRecordKey id) :
    entity? set.toList ('\'' :: (id.toList ++ ['\''])) = some (.entity set id) := by
  have hquote : ∀ c ∈ ['\''], isBlank c = false := List.forall_mem_singleton.2 rfl
  have htrimmed : IsTrimmed ('\'' :: (id.toList ++ ['\''])) :=
    hid.trimmed.append_append hquote hquote
  refine entity?_eq_some hset hid ?_
  rw [htrimmed.trim_eq, unquoted, dropLast?_concat, Option.getD_some]

/-- A record belongs to the set that it is looked for in. -/
theorem exists_eq_entity {set id : List Char} {route : Route} (h : entity? set id = some route) :
    ∃ key, route = .entity (String.ofList set) key := by
  unfold entity? at h
  simp only at h
  split at h
  · cases h
  · exact ⟨_, (Option.some.inj h).symm⟩

/-! ### Routes -/

/-- The first parenthesis decides. -/
theorem ofLocalPath?_of_splitOnce {text set rest : List Char}
    (hsplit : splitOnce '(' text = some (set, rest)) :
    ofLocalPath? text = (dropLast? ')' rest).bind (entity? set) := by
  have hmem : '(' ∈ text := by
    rw [eq_append_of_splitOnce hsplit]
    simp
  have hne : text ≠ [] := List.ne_nil_of_mem hmem
  have hmetadata : text ≠ "$metadata".toList := by
    rintro rfl
    exact absurd hmem (by decide)
  rw [ofLocalPath?, if_neg (by simpa using hne), if_neg hmetadata, hsplit]

/-- In parentheses a key ends at the end of the path, whatever it holds. -/
theorem ofLocalPath?_group {set : String} (hset : IsSetName set) (content : List Char) :
    ofLocalPath? (set.toList ++ '(' :: (content ++ [')'])) = entity? set.toList content := by
  rw [ofLocalPath?_of_splitOnce (splitOnce_append hset.parenthesis _), dropLast?_concat,
    Option.bind_some]

/-- Without a parenthesis the first slash decides. -/
theorem ofLocalPath?_of_notMem {text set id : List Char} (hopen : '(' ∉ text)
    (hsplit : splitOnce '/' text = some (set, id)) : ofLocalPath? text = entity? set id := by
  have hmem : '/' ∈ text := by
    rw [eq_append_of_splitOnce hsplit]
    simp
  have hne : text ≠ [] := List.ne_nil_of_mem hmem
  have hmetadata : text ≠ "$metadata".toList := by
    rintro rfl
    exact absurd hmem (by decide)
  rw [ofLocalPath?, if_neg (by simpa using hne), if_neg hmetadata, splitOnce_eq_none hopen, hsplit]

/-- Behind a slash an opening parenthesis leads to another set, or nowhere. -/
theorem ofLocalPath?_slash_ne {set id : String} (hset : IsSetName set) (hopen : '(' ∈ id.toList) :
    ofLocalPath? (Form.slash.text set id) ≠ some (.entity set id) := by
  obtain ⟨front, rest, hid, hfront⟩ := List.eq_append_cons_of_mem hopen
  have htext : Form.slash.text set id = (set.toList ++ '/' :: front) ++ '(' :: rest := by
    simp [Form.text, hid]
  have hnot : '(' ∉ set.toList ++ '/' :: front := by
    simp [hset.parenthesis, hfront]
  rw [htext, ofLocalPath?_of_splitOnce (splitOnce_append hnot rest)]
  intro h
  obtain ⟨key, -, hkey⟩ := Option.bind_eq_some_iff.1 h
  obtain ⟨_, heq⟩ := exists_eq_entity hkey
  -- the set that is looked for has a slash in its name
  have hname : set = String.ofList (set.toList ++ '/' :: front) := by
    simpa using (Route.entity.inj heq).1
  refine hset.slash ?_
  rw [hname, String.toList_ofList]
  simp

theorem ofLocalPath?_text_iff (form : Form) {set id : String} (hset : IsSetName set)
    (hid : IsRecordKey id) :
    ofLocalPath? (form.text set id) = some (.entity set id) ↔
      (form = .slash → '(' ∉ id.toList) := by
  cases form with
  | parentheses =>
      refine iff_of_true ?_ (by simp)
      rw [Form.text, ofLocalPath?_group hset, entity?_key hset hid]
  | quotes =>
      refine iff_of_true ?_ (by simp)
      rw [Form.text, ofLocalPath?_group hset, entity?_quoted hset hid]
  | slash =>
      by_cases hopen : '(' ∈ id.toList
      · exact iff_of_false (ofLocalPath?_slash_ne hset hopen) (by simp [hopen])
      · refine iff_of_true ?_ fun _ => hopen
        have hnot : '(' ∉ Form.slash.text set id := by simp [Form.text, hset.parenthesis, hopen]
        rw [ofLocalPath?_of_notMem hnot (splitOnce_append hset.slash _), entity?_key hset hid]

/-- **An address leads to its record unless it has an opening parenthesis behind a slash**, whatever
stands around it. -/
theorem ofPath?_address_iff {set id : String} (hset : IsSetName set) (hid : IsRecordKey id)
    (form : Form) (frame : Frame) :
    ofPath? (frame.path (form.text set id)) = some (.entity set id) ↔
      (form = .slash → '(' ∉ id.toList) := by
  rw [ofPath?, localPath_path frame (form.isBare_text hset hid) (form.not_basePath_prefix hset hid),
    ofLocalPath?_text_iff form hset hid]

/-! ### A library -/

theorem isSetName_books : IsSetName "Books" :=
  ⟨by decide, by decide, by decide, by decide⟩

theorem isRecordKey_edition : IsRecordKey "' (2nd)" :=
  ⟨by decide, by decide, by decide, by decide⟩

/-- Blanks around slashes around the base path. -/
def wideFrame : Frame where
  based := true
  slashesBefore := ['/', '/']
  slashesAfter := ['/']
  blanksBefore := [' ']
  blanksAfter := ['\u00a0']
  slash_before := by simp
  slash_after := by simp
  blank_before := List.forall_mem_singleton.2 rfl
  blank_after := List.forall_mem_singleton.2 rfl

theorem ofPath?_address_iff_books :
    IsSetName "Books" ∧ IsRecordKey "' (2nd)" ∧
      ofPath? " //odata/v4/Books('' (2nd)')/\u00a0" = some (.entity "Books" "' (2nd)") ∧
      ofPath? " //odata/v4/Books/' (2nd)/\u00a0" ≠ some (.entity "Books" "' (2nd)") := by
  have h := @ofPath?_address_iff "Books" "' (2nd)" isSetName_books isRecordKey_edition
  exact ⟨isSetName_books, isRecordKey_edition, (h .quotes wideFrame).2 (by decide),
    fun heq => (h .slash wideFrame).1 heq rfl (by decide)⟩

/-- A key behind a slash is taken apart at its parenthesis. -/
theorem ofPath?_slash_parenthesis :
    IsSetName "Books" ∧ IsRecordKey "a(1)" ∧
      ofPath? "Books/a(1)" = some (.entity "Books/a" "1") ∧
      ofPath? "Books(a(1))" = some (.entity "Books" "a(1)") :=
  ⟨isSetName_books, ⟨by decide, by decide, by decide, by decide⟩, by decide, by decide⟩

end OData.Route
