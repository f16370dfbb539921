/-
What is sent for a record, at every depth.

What is sent for a record is an object, and wherever there is an object inside it a record stands at
the same path: the related records of an expanded field are sent as a member of the object around
them.  So what holds of the names of one record holds of the members of every object.  No field is
named twice in a record that was made by the operations on field lists, and absent fields are left
out.

Main definitions:

* `Json.At`, `FieldList.At` — what stands at a path in a value, and in a record;
* `FieldList.sentKeys` — the names of the fields that are not absent;
* `FieldList.SentBy` — members that are sent for a record, each once and none for an absent field.

Main results:

* `FieldList.wellFormed_iff` — a record is well-formed if its names are distinct and the records
  inside it are well-formed; `WellFormed.insert`, `WellFormed.append`, `WellFormed.remove` — and stays
  so;
* `FieldList.at_toJson_iff` — **the objects that are sent stand where the records stand**;
* `FieldList.sentBy_of_at` — what is sent for a record at any depth.
-/

import OData.Proofs.Field.Records

set_option relaxedAutoImplicit false
set_option autoImplicit false

namespace OData

/-! ### Records that name no field twice -/

namespace FieldList

theorem allWellFormed_iff {records : List FieldList} :
    AllWellFormed records ↔ ∀ record ∈ records, record.WellFormed := by
  induction records with
  | nil => simp [AllWellFormed]
  | cons record records ih => simp [AllWellFormed, ih]

end FieldList

theorem Value.wellFormed_iff {value : Value} :
    value.WellFormed ↔ ∀ record ∈ value.records, record.WellFormed := by
  cases value with
  | nested record => simp [WellFormed, records]
  | nestedList records => exact FieldList.allWellFormed_iff
  | scalar | absent => simp [WellFormed, records]

namespace FieldList

theorem valuesWellFormed_iff {fields : List (String × Value)} :
    ValuesWellFormed fields ↔ ∀ field ∈ fields, field.2.WellFormed := by
  induction fields with
  | nil => simp [ValuesWellFormed]
  | cons field fields ih => simp [ValuesWellFormed, ih]

/-- A record is well-formed if its names are distinct and the values of its fields are
well-formed. -/
theorem wellFormed_iff {record : FieldList} :
    record.WellFormed ↔
      record.fields.Distinct ∧ ∀ field ∈ record.fields, field.2.WellFormed := by
  obtain ⟨set, fields⟩ := record
  rw [WellFormed, valuesWellFormed_iff]
  rfl

namespace WellFormed

theorem new (set : String) : (FieldList.new set).WellFormed :=
  wellFormed_iff.2 ⟨List.nodup_nil, by simp [FieldList.new]⟩

theorem insert {record : FieldList} (h : record.WellFormed) (key : String) {value : Value}
    (hvalue : value.WellFormed) : (record.insert key value).WellFormed := by
  obtain ⟨hdistinct, hfields⟩ := wellFormed_iff.1 h
  refine wellFormed_iff.2 ⟨hdistinct.insert key value, fun field hfield => ?_⟩
  rcases Ordered.mem_of_mem_insert hfield with rfl | hfield
  · exact hvalue
  · exact hfields field hfield

theorem remove {record : FieldList} (h : record.WellFormed) (key : String) :
    (record.remove key).WellFormed := by
  obtain ⟨hdistinct, hfields⟩ := wellFormed_iff.1 h
  exact wellFormed_iff.2 ⟨hdistinct.erase key,
    fun field hfield => hfields field ((Ordered.erase_sublist key _).subset hfield)⟩

theorem append {record : FieldList} (h : record.WellFormed) (key : String) {value : Value}
    (hvalue : value.WellFormed) : (record.append key value).WellFormed :=
  (h.remove key).insert key hvalue

end WellFormed

end FieldList

/-! ### Paths -/

/-- A step into a value. -/
inductive Json.Step where
  /-- To the member of a name. -/
  | member (name : String)
  /-- To the item at a place. -/
  | item (place : Nat)
deriving DecidableEq

/-- What stands at a path in a value. -/
inductive Json.At : Json → List Json.Step → Json → Prop where
  | here {json : Json} : At json [] json
  | item {items : List Json} {place : Nat} {value inner : Json} {path : List Json.Step} :
      items[place]? = some value → At value path inner →
        At (.array items) (.item place :: path) inner
  | member {members : List (String × Json)} {name : String} {value inner : Json}
      {path : List Json.Step} :
      (name, value) ∈ members → At value path inner →
        At (.object members) (.member name :: path) inner

/-- The record that stands at a path in a record, through expanded fields. -/
inductive FieldList.At : FieldList → List Json.Step → FieldList → Prop where
  | here {record : FieldList} : At record [] record
  | nested {record related inner : FieldList} {name : String} {path : List Json.Step} :
      (name, .nested related) ∈ record.fields → At related path inner →
        At record (.member name :: path) inner
  | nestedList {record related inner : FieldList} {records : List FieldList} {name : String}
      {place : Nat} {path : List Json.Step} :
      (name, .nestedList records) ∈ record.fields → records[place]? = some related →
        At related path inner → At record (.member name :: .item place :: path) inner

/-- There is no object inside a plain value. -/
theorem Json.not_at_object {json : Json} (h : json.isContainer = false) (path : List Step)
    (members : List (String × Json)) : ¬ json.At path (.object members) := by
  intro hat
  cases hat <;> cases h

theorem Scalar.isContainer_toJson (s : Scalar) : s.toJson.isContainer = false := by
  cases s with
  | decimal d =>
      rw [toJson]
      split <;> rfl
  | null | bool | int | string => rfl

namespace FieldList

theorem toJson_eq (record : FieldList) : record.toJson = .object (members record.fields) := by
  obtain ⟨set, fields⟩ := record
  rfl

theorem mem_members_iff {fields : List (String × Value)} {name : String} {json : Json} :
    (name, json) ∈ members fields ↔
      ∃ value, (name, value) ∈ fields ∧ value.isAbsent = false ∧ json = value.toJson := by
  rw [members_eq_filterMap, List.mem_map]
  constructor
  · rintro ⟨⟨key, value⟩, hfield, heq⟩
    obtain ⟨rfl, rfl⟩ := Prod.mk.inj heq
    obtain ⟨hmem, hsent⟩ := List.mem_filter.1 hfield
    exact ⟨value, hmem, by simpa using hsent, rfl⟩
  · rintro ⟨value, hmem, hsent, rfl⟩
    exact ⟨(name, value), List.mem_filter.2 ⟨hmem, by simpa using hsent⟩, rfl⟩

/-- **The objects that are sent stand where the records stand**, and each is what is sent for the
record there. -/
theorem at_toJson_iff {record : FieldList} {path : List Json.Step}
    {objectMembers : List (String × Json)} :
    record.toJson.At path (.object objectMembers) ↔
      ∃ inner, record.At path inner ∧ objectMembers = members inner.fields := by
  constructor
  · intro h
    induction record using recordInduction generalizing path with
    | step record ih =>
        rw [toJson_eq] at h
        cases h with
        | here => exact ⟨record, .here, rfl⟩
        | @member _ name json _ rest hmember h =>
            obtain ⟨value, hfield, -, rfl⟩ := mem_members_iff.1 hmember
            cases value with
            | scalar s =>
                rw [Value.toJson] at h
                exact (Json.not_at_object s.isContainer_toJson _ _ h).elim
            | absent =>
                rw [Value.toJson] at h
                exact (Json.not_at_object rfl _ _ h).elim
            | nested related =>
                obtain ⟨inner, hinner, heq⟩ := ih _ hfield related List.mem_cons_self h
                exact ⟨inner, .nested hfield hinner, heq⟩
            | nestedList records =>
                rw [Value.toJson, listToJson_eq_map] at h
                cases h with
                | item hplace h =>
                    rw [List.getElem?_map] at hplace
                    obtain ⟨related, hrelated, rfl⟩ := Option.map_eq_some_iff.1 hplace
                    obtain ⟨inner, hinner, heq⟩ :=
                      ih _ hfield related (List.mem_of_getElem? hrelated) h
                    exact ⟨inner, .nestedList hfield hrelated hinner, heq⟩
  · rintro ⟨inner, h, rfl⟩
    rw [← toJson_eq]
    induction h with
    | here => exact .here
    | nested hfield _ ih =>
        rw [toJson_eq]
        exact .member (mem_members_iff.2 ⟨_, hfield, rfl, rfl⟩) ih
    | nestedList hfield hplace _ ih =>
        rw [toJson_eq]
        refine .member (mem_members_iff.2 ⟨_, hfield, rfl, rfl⟩) ?_
        rw [Value.toJson, listToJson_eq_map]
        exact .item (by rw [List.getElem?_map, hplace]; rfl) ih

/-! ### Names -/

/-- The names of the fields that are not absent, in order. -/
def sentKeys (record : FieldList) : List String :=
  (record.fields.filter fun field => !field.2.isAbsent).map Prod.fst

theorem map_fst_members (record : FieldList) :
    (members record.fields).map Prod.fst = record.sentKeys := by
  rw [members_eq_filterMap, List.map_map, sentKeys]
  rfl

theorem sublist_sentKeys (record : FieldList) : record.sentKeys.Sublist record.keys :=
  List.filter_sublist.map Prod.fst

theorem notMem_sentKeys {record : FieldList} (h : record.fields.Distinct) {name : String}
    (habsent : record.get? name = some .absent) : name ∉ record.sentKeys := by
  intro hmem
  obtain ⟨⟨key, value⟩, hfield, rfl⟩ := List.mem_map.1 hmem
  obtain ⟨hfield, hsent⟩ := List.mem_filter.1 hfield
  obtain rfl := Option.some.inj ((Ordered.get?_of_mem h hfield).symm.trans habsent)
  cases hsent

/-- Members that are sent for a record, with some others in front: no name occurs twice, and there is
a member for each field that is not absent, and for no other. -/
structure SentBy (front : List String) (record : FieldList) (members : List (String × Json)) :
    Prop where
  names : members.map Prod.fst = front ++ record.sentKeys
  nodup : (members.map Prod.fst).Nodup
  absent : ∀ name, record.get? name = some .absent → name ∉ members.map Prod.fst

theorem At.wellFormed {record inner : FieldList} {path : List Json.Step}
    (hat : record.At path inner) (h : record.WellFormed) : inner.WellFormed := by
  induction hat with
  | here => exact h
  | nested hfield _ ih =>
      exact ih (Value.wellFormed_iff.1 ((wellFormed_iff.1 h).2 _ hfield) _ List.mem_cons_self)
  | nestedList hfield hplace _ ih =>
      exact ih (Value.wellFormed_iff.1 ((wellFormed_iff.1 h).2 _ hfield) _
        (List.mem_of_getElem? hplace))

theorem sentBy_members {record : FieldList} (h : record.WellFormed) :
    SentBy [] record (members record.fields) := by
  have hdistinct := (wellFormed_iff.1 h).1
  refine ⟨map_fst_members record, ?_, fun name habsent => ?_⟩
  · rw [map_fst_members]
    exact record.sublist_sentKeys.nodup hdistinct
  · rw [map_fst_members]
    exact notMem_sentKeys hdistinct habsent

/-- What is sent for a well-formed record is so at any depth. -/
theorem sentBy_of_at {record : FieldList} (h : record.WellFormed) {path : List Json.Step}
    {objectMembers : List (String × Json)} (hat : record.toJson.At path (.object objectMembers)) :
    ∃ inner, record.At path inner ∧ SentBy [] inner objectMembers := by
  obtain ⟨inner, hinner, rfl⟩ := at_toJson_iff.1 hat
  exact ⟨inner, hinner, sentBy_members (hinner.wellFormed h)⟩

end FieldList

end OData
