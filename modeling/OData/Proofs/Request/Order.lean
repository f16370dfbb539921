/-
Expand terms in another order.

Each term of a query is put to the capability with the field list as the terms before it have left
it, and what it resolves takes the place of whatever stood under its expansion key.  So the order of
the terms matters where one puts its records over the field that another is resolved by, or under
the same name.  Where the terms keep apart, the run of the terms is the same as resolving them all on
the field list as it was and putting the results behind it, and the order shows in nothing but the
order of these results.

Main definitions:

* `ReadsBy` — capabilities that resolve each relationship by the value of one field;
* `KeepApart` — relationships that do not get in each other's way;
* `expansions` — what several items expand to, all of them on one field list.

Main results:

* `foldl_expandItem_eq` — **items that keep apart are expanded independently**;
* `get?_expandItems_of_perm`, `keys_expandItems_of_perm` — items in another order;
* `Record.expanded_of_perm` — **a record with its terms in another order**.
-/

import OData.Proofs.Request.Answer

set_option relaxedAutoImplicit false
set_option autoImplicit false

namespace OData

open Query

/-! ### Entries of different names -/

/-- Where an entry stands among entries of different names does not matter for finding it. -/
theorem Ordered.get?_eq_of_perm {β : Type} {es es' : Ordered β} (hperm : es.Perm es')
    (hd : es.Distinct) (key : String) : Ordered.get? key es = Ordered.get? key es' := by
  have hd' : es'.Distinct := (hperm.map Prod.fst).nodup_iff.1 hd
  refine Option.ext fun value => ⟨fun h => ?_, fun h => ?_⟩
  · exact Ordered.get?_of_mem hd' (hperm.mem_iff.1 (Ordered.mem_of_get? h))
  · exact Ordered.get?_of_mem hd (hperm.mem_iff.2 (Ordered.mem_of_get? h))

/-- A field list with several fields put at its end, one after the other. -/
def FieldList.appendAll (record : FieldList) (pairs : List (String × Value)) : FieldList :=
  pairs.foldl (fun record pair => record.append pair.1 pair.2) record

theorem FieldList.distinct_append {record : FieldList} (hd : record.fields.Distinct) (key : String)
    (value : Value) : (record.append key value).fields.Distinct :=
  hd.moveToEnd key value

/-- The appended fields are found first. -/
theorem FieldList.get?_appendAll {record : FieldList} (hd : record.fields.Distinct)
    {pairs : List (String × Value)} (hpairs : Ordered.Distinct pairs) (key : String) :
    (record.appendAll pairs).get? key = (Ordered.get? key pairs).or (record.get? key) := by
  induction pairs generalizing record with
  | nil => rfl
  | cons pair pairs ih =>
      rw [Ordered.Distinct, Ordered.keys_cons, List.nodup_cons] at hpairs
      have hrest := ih (distinct_append hd pair.1 pair.2) hpairs.2
      rw [appendAll, List.foldl_cons]
      refine hrest.trans ?_
      rw [get?_append hd]
      by_cases hkey : pair.1 = key
      · subst hkey
        have hnone : Ordered.get? pair.1 pairs = none := Ordered.get?_eq_none_iff.2 hpairs.1
        simp [Ordered.get?, hnone]
      · simp [Ordered.get?, hkey, Ne.symm hkey]

/-! ### Capabilities that look at one field -/

/-- A capability resolves each relationship that it knows by the value of one field, and no
other. -/
structure ReadsBy (capability : Capability) (local? : String → Option String) : Prop where
  unknown : ∀ {relationship : String}, local? relationship = none →
    ∀ record text, capability record relationship text = none
  known : ∀ {relationship key : String}, local? relationship = some key →
    ∀ {record record' : FieldList}, record.get? key = record'.get? key →
      ∀ text, capability record relationship text = capability record' relationship text

/-- Relationships do not get in each other's way: the records of one that can be resolved stand
neither under the name of another's records nor in the place of the field that resolves another. -/
def KeepApart (local? : String → Option String) (keyOf : String → String) (names : List String) :
    Prop :=
  ∀ a ∈ names, ∀ b ∈ names, a ≠ b → (local? a).isSome = true →
    ∀ key ∈ local? b, keyOf a ≠ keyOf b ∧ keyOf a ≠ key

section

variable (registry : Registry) (capability : Capability)

/-- What an item expands to on a field list, with the name under which it is shown. -/
def expansion? (record : FieldList) (item : ExpandItem) : Option (String × Value) :=
  (capability record item.name item.nestedOption).map fun related =>
    (expansionKey registry record item.name, related.answer registry item.nested)

/-- What several items expand to, all of them on one field list. -/
def expansions (record : FieldList) (items : List ExpandItem) : List (String × Value) :=
  items.filterMap (expansion? registry capability record)

variable {registry capability}

theorem expansions_cons_of_eq_none {record : FieldList} {item : ExpandItem}
    (h : capability record item.name item.nestedOption = none) (items : List ExpandItem) :
    expansions registry capability record (item :: items)
      = expansions registry capability record items :=
  List.filterMap_cons_none (by rw [expansion?, h, Option.map_none])

theorem expansions_cons_of_eq_some {record : FieldList} {item : ExpandItem} {related : Related}
    (h : capability record item.name item.nestedOption = some related) (items : List ExpandItem) :
    expansions registry capability record (item :: items)
      = (expansionKey registry record item.name, related.answer registry item.nested)
        :: expansions registry capability record items :=
  List.filterMap_cons_some (by rw [expansion?, h, Option.map_some])

variable {local? : String → Option String} {record : FieldList}
  {items items' : List ExpandItem}

theorem ReadsBy.exists_local (hreads : ReadsBy capability local?) {item : ExpandItem}
    {related : Related} (h : capability record item.name item.nestedOption = some related) :
    ∃ key, local? item.name = some key := by
  cases hlocal : local? item.name with
  | none =>
      rw [hreads.unknown hlocal] at h
      cases h
  | some key => exact ⟨key, rfl⟩

/-- An item expands to the same after another has been expanded, if the two keep apart. -/
theorem expansion?_expandItem (hreads : ReadsBy capability local?) (hd : record.fields.Distinct)
    {item other : ExpandItem}
    (h : (local? item.name).isSome = true →
      ∀ key ∈ local? other.name, expansionKey registry record item.name ≠ key) :
    expansion? registry capability (record.expandItem registry capability item) other
      = expansion? registry capability record other := by
  have hset := FieldList.entitySet_expandItem registry capability record item
  have hsame : capability (record.expandItem registry capability item) other.name
      other.nestedOption = capability record other.name other.nestedOption := by
    cases hother : local? other.name with
    | none => rw [hreads.unknown hother, hreads.unknown hother]
    | some key =>
        refine hreads.known hother ?_ _
        cases hitem : capability record item.name item.nestedOption with
        | none => rw [FieldList.expandItem_of_eq_none hitem]
        | some related =>
            obtain ⟨known, hknown⟩ := hreads.exists_local hitem
            have hne := h (by rw [hknown]; rfl) key hother
            rw [FieldList.expandItem_of_eq_some hitem, FieldList.get?_append hd, if_neg hne.symm]
  rw [expansion?, hsame, expansionKey_congr registry hset, expansion?]

theorem KeepApart.expansions_expandItem (hreads : ReadsBy capability local?)
    (hd : record.fields.Distinct) {item : ExpandItem}
    (hnames : ((item :: items).map (·.name)).Nodup)
    (hapart : KeepApart local? (expansionKey registry record) ((item :: items).map (·.name))) :
    expansions registry capability (record.expandItem registry capability item) items
      = expansions registry capability record items := by
  rw [List.map_cons, List.nodup_cons] at hnames
  refine List.filterMap_congr fun other hother => ?_
  refine expansion?_expandItem hreads hd fun hknown key hkey => ?_
  have hmem : other.name ∈ items.map (·.name) := List.mem_map_of_mem hother
  have hne : item.name ≠ other.name := fun heq => hnames.1 (heq ▸ hmem)
  exact (hapart _ List.mem_cons_self _ (List.mem_cons_of_mem _ hmem) hne hknown key hkey).2

/-- What keeps apart on a field list does so after a step. -/
theorem KeepApart.tail {item : ExpandItem}
    (hapart : KeepApart local? (expansionKey registry record) ((item :: items).map (·.name))) :
    KeepApart local? (expansionKey registry (record.expandItem registry capability item))
      (items.map (·.name)) := by
  have hkeys : expansionKey registry (record.expandItem registry capability item)
      = expansionKey registry record :=
    funext fun name => expansionKey_congr registry
      (FieldList.entitySet_expandItem registry capability record item) name
  rw [hkeys]
  intro a ha b hb
  exact hapart a (List.mem_cons_of_mem _ ha) b (List.mem_cons_of_mem _ hb)

/-- **Items that keep apart are expanded independently**: the run of the items puts what each of them
expands to on the first field list behind it. -/
theorem foldl_expandItem_eq (hreads : ReadsBy capability local?) (hd : record.fields.Distinct)
    (hnames : (items.map (·.name)).Nodup)
    (hapart : KeepApart local? (expansionKey registry record) (items.map (·.name))) :
    items.foldl (FieldList.expandItem registry capability) record
      = record.appendAll (expansions registry capability record items) := by
  -- each item finds the fields that it reads as they were, so that the first list can stay in place
  induction items generalizing record with
  | nil => rfl
  | cons item items ih =>
      have hrest := ih (FieldList.distinct_expandItem registry capability hd item)
        (List.nodup_cons.1 hnames).2 hapart.tail
      rw [hapart.expansions_expandItem hreads hd hnames] at hrest
      rw [List.foldl_cons, hrest]
      cases hitem : capability record item.name item.nestedOption with
      | none => rw [expansions_cons_of_eq_none hitem, FieldList.expandItem_of_eq_none hitem]
      | some related =>
          rw [expansions_cons_of_eq_some hitem, FieldList.expandItem_of_eq_some hitem]
          rfl

/-- The items that are resolved in the run are those that are resolved at its start. -/
theorem expansionKeys_eq (hreads : ReadsBy capability local?) (hd : record.fields.Distinct)
    (hnames : (items.map (·.name)).Nodup)
    (hapart : KeepApart local? (expansionKey registry record) (items.map (·.name))) :
    expansionKeys registry capability record items
      = Ordered.keys (expansions registry capability record items) := by
  induction items generalizing record with
  | nil => rfl
  | cons item items ih =>
      have hrest := ih (FieldList.distinct_expandItem registry capability hd item)
        (List.nodup_cons.1 hnames).2 hapart.tail
      rw [hapart.expansions_expandItem hreads hd hnames] at hrest
      cases hitem : capability record item.name item.nestedOption with
      | none =>
          rw [FieldList.expandItem_of_eq_none hitem] at hrest
          rw [expansionKeys_cons_of_eq_none hitem, hrest, expansions_cons_of_eq_none hitem]
      | some related =>
          rw [expansionKeys_cons_of_eq_some hitem, hrest, expansions_cons_of_eq_some hitem,
            Ordered.keys_cons]

/-- Items that keep apart are shown under different names. -/
theorem distinct_expansions (hreads : ReadsBy capability local?)
    (hnames : (items.map (·.name)).Nodup)
    (hapart : KeepApart local? (expansionKey registry record) (items.map (·.name))) :
    Ordered.Distinct (expansions registry capability record items) := by
  induction items with
  | nil => exact List.nodup_nil
  | cons item items ih =>
      have hrest := ih (List.nodup_cons.1 hnames).2 fun a ha b hb =>
        hapart a (List.mem_cons_of_mem _ ha) b (List.mem_cons_of_mem _ hb)
      cases hitem : capability record item.name item.nestedOption with
      | none => rwa [expansions_cons_of_eq_none hitem]
      | some related =>
          rw [expansions_cons_of_eq_some hitem, Ordered.Distinct, Ordered.keys_cons, List.nodup_cons]
          refine ⟨fun hkey => ?_, hrest⟩
          -- another item with that name would be a relationship that gets in the way
          obtain ⟨pair, hpair, hsame⟩ := List.mem_map.1 hkey
          obtain ⟨other, hother, hexpansion⟩ := List.mem_filterMap.1 hpair
          obtain ⟨found, hfound, rfl⟩ := Option.map_eq_some_iff.1 hexpansion
          have hmem : other.name ∈ items.map (·.name) := List.mem_map_of_mem hother
          have hne : item.name ≠ other.name := by
            rintro heq
            exact (List.nodup_cons.1 hnames).1 (heq ▸ hmem : item.name ∈ items.map (·.name))
          obtain ⟨_, hthis⟩ := hreads.exists_local hitem
          obtain ⟨key, hthat⟩ := hreads.exists_local hfound
          exact (hapart _ List.mem_cons_self _ (List.mem_cons_of_mem _ hmem) hne
            (by rw [hthis]; rfl) key hthat).1 hsame.symm

theorem KeepApart.of_perm {keyOf : String → String} (hperm : items.Perm items')
    (hapart : KeepApart local? keyOf (items.map (·.name))) :
    KeepApart local? keyOf (items'.map (·.name)) :=
  fun a ha b hb => hapart a ((hperm.map _).mem_iff.2 ha) b ((hperm.map _).mem_iff.2 hb)

/-- In another order, items that keep apart put the same values under the same names. -/
theorem get?_expandItems_of_perm (hreads : ReadsBy capability local?) (hd : record.fields.Distinct)
    (hperm : items.Perm items') (hnames : (items.map (·.name)).Nodup)
    (hapart : KeepApart local? (expansionKey registry record) (items.map (·.name))) (key : String) :
    (items.foldl (FieldList.expandItem registry capability) record).get? key
      = (items'.foldl (FieldList.expandItem registry capability) record).get? key := by
  have hnames' : (items'.map (·.name)).Nodup := (hperm.map _).nodup_iff.1 hnames
  have hapart' := hapart.of_perm hperm
  have hexpansions : (expansions registry capability record items).Perm
      (expansions registry capability record items') := hperm.filterMap _
  rw [foldl_expandItem_eq hreads hd hnames hapart, foldl_expandItem_eq hreads hd hnames' hapart',
    FieldList.get?_appendAll hd (distinct_expansions hreads hnames hapart),
    FieldList.get?_appendAll hd (distinct_expansions hreads hnames' hapart'),
    Ordered.get?_eq_of_perm hexpansions (distinct_expansions hreads hnames hapart)]

/-- Items that keep apart put the names of what they expand to at the end, each once. -/
theorem keys_expandItems_apart (hreads : ReadsBy capability local?) (hd : record.fields.Distinct)
    (hnames : (items.map (·.name)).Nodup)
    (hapart : KeepApart local? (expansionKey registry record) (items.map (·.name))) :
    (items.foldl (FieldList.expandItem registry capability) record).keys
      = record.keys.filter (· ∉ Ordered.keys (expansions registry capability record items))
        ++ Ordered.keys (expansions registry capability record items) := by
  rw [keys_expandItems hd, expansionKeys_eq hreads hd hnames hapart,
    List.Nodup.dedup (distinct_expansions hreads hnames hapart)]

/-- In another order, items that keep apart leave the same names in place and put the same names at
the end. -/
theorem keys_expandItems_of_perm (hreads : ReadsBy capability local?) (hd : record.fields.Distinct)
    (hperm : items.Perm items') (hnames : (items.map (·.name)).Nodup)
    (hapart : KeepApart local? (expansionKey registry record) (items.map (·.name))) :
    ∃ kept moved moved', moved.Perm moved' ∧
      (items.foldl (FieldList.expandItem registry capability) record).keys = kept ++ moved ∧
      (items'.foldl (FieldList.expandItem registry capability) record).keys = kept ++ moved' := by
  have hnames' : (items'.map (·.name)).Nodup := (hperm.map _).nodup_iff.1 hnames
  have hapart' := hapart.of_perm hperm
  have hmoved : (Ordered.keys (expansions registry capability record items)).Perm
      (Ordered.keys (expansions registry capability record items')) :=
    (hperm.filterMap _).map _
  have hkept : record.keys.filter (· ∉ Ordered.keys (expansions registry capability record items))
      = record.keys.filter (· ∉ Ordered.keys (expansions registry capability record items')) :=
    List.filter_congr fun key _ => by simp only [hmoved.mem_iff]
  refine ⟨_, _, _, hmoved, keys_expandItems_apart hreads hd hnames hapart, ?_⟩
  rw [keys_expandItems_apart hreads hd hnames' hapart', hkept]

end

/-! ### Records -/

/-- Introspection looks at which relationships are asked for, not at their order. -/
theorem Record.introspect_congr (record : Record) {asked asked' : List String}
    (h : ∀ name, name ∈ asked ↔ name ∈ asked') :
    record.introspect asked = record.introspect asked' := by
  have hwritten : isWritten asked = isWritten asked' := by
    funext field
    rw [Bool.eq_iff_iff, isWritten_iff, isWritten_iff]
    simp only [h]
  rw [introspect_eq, introspect_eq, written, written, hwritten]

/-- **A record with its terms in another order.**  Where the relationships keep apart, the field list
has the same value under every name, and only the expanded records at its end may stand in another
order. -/
theorem Record.expanded_of_perm {registry : Registry} {record : Record}
    {local? : String → Option String} {items items' : List ExpandItem}
    (hreads : ReadsBy (registry.capability record.type.name) local?)
    (hperm : items.Perm items') (hnames : (items.map (·.name)).Nodup)
    (hapart : KeepApart local? (expansionKey registry (record.introspect (items.map (·.name))))
      (items.map (·.name))) :
    (∀ key, (record.expanded registry items).value.get? key
        = (record.expanded registry items').value.get? key) ∧
      ∃ kept moved moved', moved.Perm moved' ∧
        (record.expanded registry items).value.keys = kept ++ moved ∧
        (record.expanded registry items').value.keys = kept ++ moved' := by
  have hsame := record.introspect_congr fun name => ((hperm.map (·.name)).mem_iff : name ∈ _ ↔ _)
  have hd := record.distinct_introspect (items.map (·.name))
  rw [value_expanded, value_expanded, ← hsame]
  refine ⟨get?_expandItems_of_perm hreads hd hperm hnames hapart, ?_⟩
  exact keys_expandItems_of_perm hreads hd hperm hnames hapart

end OData
