/-
Expansion terminates, and its depth is bounded by the query.

Relationships may run in circles, so that nothing about the records bounds their expansion.  What
bounds it is the text: the text in an expand term's parentheses is shorter than the text around it,
and has fewer opening parentheses.  Expansion that reads each text when it comes to it, with a limit
for the calls inside each other, therefore comes to an end, with the result of expanding the tree of
terms; and records that are not expanded themselves stand no deeper inside an answer than the
parentheses of the query.

Main definitions:

* `expandWithin` — expansion that reads texts on the way, within a number of calls;
* `Record.IsFlat`, `Registry.IsFlat` — records that give plain values only.

Main results:

* `expandWithin_eq` — **a few calls are enough**, whatever the capabilities answer;
* `depth_expandItems_le` — expanded records stand no deeper than the levels of the items;
* `expansion_bounded` — both, by the text of a query.
-/

import OData.Proofs.Field.Depth
import OData.Proofs.Query.Level
import OData.Proofs.Request.Nested

set_option relaxedAutoImplicit false
set_option autoImplicit false

namespace OData

open Query

variable (registry : Registry)

/-! ### Reading texts on the way -/

/-- The value that shows related records, given how one record is answered. -/
def Related.answerBy (answer : Record → Option FieldList) (options : Options) :
    Related → Option Value
  | .one record => (answer record).map .nested
  | .many records => ((window records options.skip options.top).mapM answer).map .nestedList

/-- Expands an item on a field list, given how a record is answered with some options. -/
def FieldList.expandItemBy (answer : Options → Record → Option FieldList) (capability : Capability)
    (fields : FieldList) (item : ExpandItem) : Option FieldList :=
  match capability fields item.name item.nestedOption with
  | none => some fields
  | some related =>
    (related.answerBy (answer item.nested) item.nested).map
      (fields.append (expansionKey registry fields item.name))

/-- Expands some items on a field list.  The text in an item's parentheses is read when the records
of the item are there, and each of them is expanded by a call of its own; there is no result if more
calls would be inside each other than the given number. -/
def expandWithin : Nat → Capability → FieldList → List ExpandItem → Option FieldList
  | 0, _, _, _ => none
  | calls + 1, capability, fields, items =>
    let answer (options : Options) (record : Record) : Option FieldList :=
      (expandWithin calls (registry.capability record.type.name)
        (record.introspect (options.expand.map (·.name))) options.expand).map
          (·.select options.select)
    items.foldlM (FieldList.expandItemBy registry answer capability) fields

variable {registry}

theorem Related.answerBy_eq {answer : Record → Option FieldList} {options : Options}
    (h : ∀ record, answer record = some (record.answer registry options).value)
    (related : Related) :
    related.answerBy answer options = some (related.answer registry options) := by
  cases related with
  | one record => rw [answerBy, h, Option.map_some, Related.answer]
  | many records =>
      obtain rfl : answer = fun record => pure (record.answer registry options).value := funext h
      rw [answerBy, List.mapM_pure, Related.answer, answerAll, Journal.value_traverse]
      rfl

theorem FieldList.expandItemBy_eq {answer : Options → Record → Option FieldList} {item : ExpandItem}
    (h : ∀ record, answer item.nested record = some (record.answer registry item.nested).value)
    (capability : Capability) (fields : FieldList) :
    fields.expandItemBy registry answer capability item
      = some (fields.expandItem registry capability item) := by
  rw [expandItemBy]
  cases hrelated : capability fields item.name item.nestedOption with
  | none => rw [expandItem_of_eq_none hrelated]
  | some related =>
      rw [expandItem_of_eq_some hrelated]
      simp only [Related.answerBy_eq h, Option.map_some]

/-- **A few calls are enough**: one more than the items have levels. -/
theorem expandWithin_eq {n : Nat} {items : List ExpandItem} (h : ∀ item ∈ items, item.level < n)
    (capability : Capability) (fields : FieldList) :
    expandWithin registry (n + 1) capability fields items
      = some (items.foldl (FieldList.expandItem registry capability) fields) := by
  -- each call is about items with fewer levels than the item around them
  induction n generalizing items capability fields with
  | zero =>
      obtain rfl := eq_nil_of_level_lt_zero h
      rfl
  | succ n ih =>
      rw [expandWithin]
      induction items generalizing fields with
      | nil => rfl
      | cons item items ihitems =>
          have hnested := level_lt_of_mem_nested_of_lt (h item List.mem_cons_self)
          rw [List.foldlM_cons, FieldList.expandItemBy_eq, List.foldl_cons]
          · exact ihitems (fun other hother => h other (List.mem_cons_of_mem _ hother)) _
          · intro record
            rw [ih hnested, Option.map_some, Record.value_answer, Record.value_expanded]

/-! ### Flat records -/

/-- A record that gives no expanded values by itself. -/
def Record.IsFlat (record : Record) : Prop :=
  ∀ name, ∀ value ∈ record.value? name, value.isExpanded = false

/-- The records that a relationship leads to. -/
def Related.records : Related → List Record
  | .one record => [record]
  | .many records => records

/-- A capability that leads to flat records. -/
def Capability.IsFlat (capability : Capability) : Prop :=
  ∀ fields relationship text, ∀ related ∈ capability fields relationship text,
    ∀ record ∈ related.records, record.IsFlat

/-- A registry whose capabilities lead to flat records. -/
def Registry.IsFlat (registry : Registry) : Prop := ∀ set, (registry.capability set).IsFlat

theorem Record.IsFlat.depth_introspect_le {record : Record} (h : record.IsFlat)
    (asked : List String) (n : Nat) : (record.introspect asked).depth ≤ n := by
  refine Nat.le_trans ?_ (Nat.zero_le n)
  rw [FieldList.depth_le_iff, fields_introspect]
  intro shown hshown
  obtain ⟨field, -, rfl⟩ := List.mem_map.1 (Ordered.mem_of_mem_ofList hshown)
  refine Nat.le_of_eq (Value.depth_of_not_isExpanded ?_)
  cases hvalue : record.value? field.name with
  | none => rfl
  | some value => exact h field.name value hvalue

/-- The values of flat records are one level deeper than the answers inside them. -/
theorem Related.depth_answer_le {related : Related} {options : Options} {n : Nat}
    (h : ∀ record ∈ related.records, (record.answer registry options).value.depth ≤ n) :
    (related.answer registry options).depth ≤ n + 1 := by
  cases related with
  | one record =>
      rw [Related.answer, Value.depth]
      exact Nat.succ_le_succ (h record List.mem_cons_self)
  | many records =>
      rw [Related.answer, answerAll, Value.depth, Journal.value_traverse]
      refine Nat.succ_le_succ (FieldList.listDepth_le_iff.2 fun shown hshown => ?_)
      obtain ⟨record, hrecord, rfl⟩ := List.mem_map.1 hshown
      exact h record (mem_of_mem_window hrecord)

theorem FieldList.depth_expandItem_le {capability : Capability} {item : ExpandItem}
    {fields : FieldList} {n : Nat} (hfields : fields.depth ≤ n)
    (h : ∀ related ∈ capability fields item.name item.nestedOption,
      (related.answer registry item.nested).depth ≤ n) :
    (fields.expandItem registry capability item).depth ≤ n := by
  cases hrelated : capability fields item.name item.nestedOption with
  | none => rwa [expandItem_of_eq_none hrelated]
  | some related =>
      rw [expandItem_of_eq_some hrelated]
      exact depth_append_le hfields (h related hrelated) _

/-- Expanding items with few levels keeps a field list flat up to those levels. -/
theorem depth_expandItems_le (hregistry : registry.IsFlat) {n : Nat} {items : List ExpandItem}
    (h : ∀ item ∈ items, item.level < n) {capability : Capability} (hcapability : capability.IsFlat)
    {fields : FieldList} (hfields : fields.depth ≤ n) :
    (items.foldl (FieldList.expandItem registry capability) fields).depth ≤ n := by
  -- the items inside an item have fewer levels, and what they expand stands one level deeper
  induction n generalizing items capability fields with
  | zero =>
      obtain rfl := eq_nil_of_level_lt_zero h
      exact hfields
  | succ n ih =>
      induction items generalizing fields with
      | nil => exact hfields
      | cons item items ihitems =>
          have hnested := level_lt_of_mem_nested_of_lt (h item List.mem_cons_self)
          refine ihitems (fun other hother => h other (List.mem_cons_of_mem _ hother))
            (FieldList.depth_expandItem_le hfields fun related hrelated => ?_)
          refine Related.depth_answer_le fun record hrecord => ?_
          have hflat := hcapability _ _ _ related hrelated record hrecord
          have hexpanded := ih hnested (hregistry record.type.name)
            (hflat.depth_introspect_le (item.nested.expand.map (·.name)) n)
          rw [Record.value_answer, Record.value_expanded]
          exact Nat.le_trans (FieldList.depth_select_le _ _) hexpanded

/-! ### The text of a query -/

/-- **Expansion ends, and goes no deeper than the parentheses of the query.**  The items inside
parentheses have shorter texts of their own.  Expansion that reads each text when it comes to it
ends within a number of calls inside each other that depends on the texts only, whatever the records
and the capabilities, and has the same result; for a query, two calls more than it has opening
parentheses are enough.  If records give plain values only, the expanded values of an answer stand
at most one level deeper inside each other than there are opening parentheses. -/
theorem expansion_bounded :
    (∀ (content : String), ∀ item ∈ (Options.parseNested content).expand,
        item.subQuery.length < content.length) ∧
      (∀ items : List ExpandItem, ∃ calls, ∀ (registry : Registry) (capability : Capability)
        (set : String) (fields : FieldList), expandWithin registry calls capability fields items
          = some (expandTerms registry capability set fields (items.map Term.ofItem)).value) ∧
      ∀ (registry : Registry) (record : Record) (raw : String),
        let options := Options.parse raw
        expandWithin registry (raw.toList.count '(' + 2) (registry.capability record.type.name)
            (record.introspect (options.expand.map (·.name))) options.expand
          = some (record.expanded registry options.expand).value ∧
        (registry.IsFlat → record.IsFlat →
          (record.answer registry options).value.depth ≤ 1 + raw.toList.count '(') := by
  refine ⟨fun content item hitem => length_subQuery_lt_of_mem_parseNested hitem, ?_, ?_⟩
  · intro items
    obtain ⟨n, hn⟩ : ∃ n, ∀ item ∈ items, item.level < n := exists_level_lt items
    refine ⟨n + 1, fun registry capability set fields => ?_⟩
    rw [expandWithin_eq hn, value_expandTerms]
  · intro registry record raw options
    have hlevel : ∀ item ∈ options.expand, item.level < raw.toList.count '(' + 1 :=
      fun item hitem => Nat.lt_succ_of_le (level_le_of_mem_parse hitem)
    refine ⟨by rw [expandWithin_eq hlevel, Record.value_expanded], fun hregistry hrecord => ?_⟩
    have hexpanded := depth_expandItems_le hregistry hlevel (hregistry record.type.name)
      (hrecord.depth_introspect_le (options.expand.map (·.name)) _)
    rw [Record.value_answer, Record.value_expanded, Nat.add_comm]
    exact Nat.le_trans (FieldList.depth_select_le _ _) hexpanded

theorem isFlat_author : author.IsFlat := by
  intro name value hvalue
  obtain ⟨-, rfl⟩ : name = "Name" ∧ Value.scalar (.string "Ada") = value := by
    simpa [author] using hvalue
  rfl

theorem isFlat_book : book.IsFlat := by
  intro name value hvalue
  obtain ⟨-, rfl⟩ : name = "Title" ∧ Value.scalar (.string "Notes") = value := by
    simpa [book] using hvalue
  rfl

theorem isFlat_authorRelated : authorRelated.IsFlat := by
  intro fields relationship text related hrelated record hrecord
  obtain ⟨-, rfl⟩ : relationship = "Books" ∧ Related.many [book, book] = related := by
    simpa [authorRelated] using hrelated
  obtain rfl : record = book := by simpa [Related.records] using hrecord
  exact isFlat_book

theorem isFlat_bookRelated : bookRelated.IsFlat := by
  intro fields relationship text related hrelated record hrecord
  obtain ⟨-, rfl⟩ : relationship = "Author" ∧ Related.one author = related := by
    simpa [bookRelated] using hrelated
  obtain rfl : record = author := by simpa [Related.records] using hrecord
  exact isFlat_author

theorem isFlat_library : library.IsFlat := by
  intro set
  have hset : library.set? set = if set = "Books" then some ⟨book.type, { expand := bookRelated }⟩
      else if set = "Authors" then some ⟨author.type, { expand := authorRelated }⟩ else none := by
    rw [library, Registry.ofRegistrations]
    simp only [List.foldl_cons, List.foldl_nil, Registry.apply, Registry.set?_register,
      Registry.set?_empty]
    rfl
  rw [Registry.capability, hset]
  by_cases hbooks : set = "Books"
  · simpa [hbooks] using isFlat_bookRelated
  · by_cases hauthors : set = "Authors"
    · simpa [hauthors] using isFlat_authorRelated
    · intro fields relationship text related hrelated
      simp [hbooks, hauthors, Capability.none] at hrelated

theorem expansion_bounded_library :
    let raw := "$expand=Books($expand=Author($expand=Books))"
    (library.IsFlat ∧ author.IsFlat ∧
      ⟨"Author", "$expand=Books"⟩ ∈ (Options.parseNested "$expand=Author($expand=Books)").expand) ∧
      (author.answer library (Options.parse raw)).value.depth ≤ 3 ∧
      "$expand=Books".length < "$expand=Author($expand=Books)".length :=
  have hitem : ⟨"Author", "$expand=Books"⟩
      ∈ (Options.parseNested "$expand=Author($expand=Books)").expand := by decide
  ⟨⟨isFlat_library, isFlat_author, hitem⟩,
    (expansion_bounded.2.2 library author _).2 isFlat_library isFlat_author,
    expansion_bounded.1 _ _ hitem⟩

end OData
