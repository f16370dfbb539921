/-
Field lists: records in the order in which they are written.

A field list is an ordered list of named values, tagged with the entity set that its record comes
from.  A value is plain, or the result of expanding a relationship to one record or to several, or
absent: known by name, but never sent.

* `Value`, `FieldList` — the two types, each inside the other;
* `FieldList.insert`, `FieldList.append`, `FieldList.remove`, `FieldList.get?` — the operations, all
  of which keep the order of the fields they do not touch;
* `Value.toJson`, `FieldList.toJson` — what is sent; an absent field has no member, at any depth;
* `FieldList.WellFormed` — no name occurs twice, at any depth.
-/

import OData.Field.Scalar

set_option relaxedAutoImplicit false
set_option autoImplicit false

namespace OData

mutual

/-- The value of a field. -/
inductive Value where
  /-- A plain value. -/
  | scalar (value : Scalar)
  /-- The record that a relationship to one leads to. -/
  | nested (record : FieldList)
  /-- The records that a relationship to many leads to. -/
  | nestedList (records : List FieldList)
  /-- No value: the field is left out of what is sent. -/
  | absent

/-- Named values in order, with the entity set of the record that they describe. -/
inductive FieldList where
  | mk (entitySet : Option String) (fields : List (String × Value))

end

instance : Inhabited Value := ⟨.absent⟩

instance : Inhabited FieldList := ⟨.mk none []⟩

/-! ### Values -/

namespace Value

/-- Whether a value is the result of an expansion. -/
def isExpanded : Value → Bool
  | nested _ => true
  | nestedList _ => true
  | _ => false

/-- Whether a value is left out of what is sent. -/
def isAbsent : Value → Bool
  | absent => true
  | _ => false

/-- The plain value, if it is one. -/
def scalar? : Value → Option Scalar
  | scalar s => some s
  | _ => none

/-- The string, if the value is one. -/
def string? : Value → Option String
  | scalar (.string s) => some s
  | _ => none

/-- The record of a relationship to one. -/
def nested? : Value → Option FieldList
  | nested record => some record
  | _ => none

/-- The records of a relationship to many. -/
def nestedList? : Value → Option (List FieldList)
  | nestedList records => some records
  | _ => none

/-- The text by which a plain value is matched as a key. -/
def key? (value : Value) : Option String := value.scalar?.bind Scalar.key?

end Value

/-! ### Field lists -/

namespace FieldList

/-- The empty field list of a record of an entity set. -/
def new (entitySet : String) : FieldList := mk (some entitySet) []

/-- The empty field list of no entity set in particular. -/
def anonymous : FieldList := mk none []

/-- The entity set that the record comes from. -/
def entitySet : FieldList → Option String
  | mk set _ => set

/-- The named values in order. -/
def fields : FieldList → Ordered Value
  | mk _ fields => fields

/-- The same record with other fields. -/
def withFields (record : FieldList) (fields : Ordered Value) : FieldList :=
  mk record.entitySet fields

/-- The empty field list of the same entity set. -/
def emptyLike (record : FieldList) : FieldList := record.withFields []

/-- The names of the fields, in order. -/
def keys (record : FieldList) : List String := record.fields.keys

/-- The number of fields, absent ones included. -/
def size (record : FieldList) : Nat := record.fields.length

/-- Whether there are no fields. -/
def isEmpty (record : FieldList) : Bool := record.fields.isEmpty

/-- The value of a field. -/
def get? (record : FieldList) (key : String) : Option Value := Ordered.get? key record.fields

/-- Whether there is a field of this name. -/
def contains (record : FieldList) (key : String) : Bool := record.fields.contains key

/-- Gives a field a value.  A known field keeps its place; a new one comes last. -/
def insert (record : FieldList) (key : String) (value : Value) : FieldList :=
  record.withFields (record.fields.insert key value)

/-- Puts a field at the end, wherever it stood before. -/
def append (record : FieldList) (key : String) (value : Value) : FieldList :=
  record.withFields (record.fields.moveToEnd key value)

/-- Removes a field and keeps the order of the rest. -/
def remove (record : FieldList) (key : String) : FieldList :=
  record.withFields (record.fields.erase key)

/-- The field list of an entity set with some values, inserted in order. -/
def ofPairs (entitySet : Option String) (pairs : List (String × Value)) : FieldList :=
  mk entitySet (Ordered.ofList pairs)

@[simp] theorem entitySet_mk (set : Option String) (fields : List (String × Value)) :
    (mk set fields).entitySet = set := rfl

@[simp] theorem fields_mk (set : Option String) (fields : List (String × Value)) :
    (mk set fields).fields = fields := rfl

@[simp] theorem entitySet_withFields (record : FieldList) (fields : Ordered Value) :
    (record.withFields fields).entitySet = record.entitySet := rfl

@[simp] theorem fields_withFields (record : FieldList) (fields : Ordered Value) :
    (record.withFields fields).fields = fields := rfl

@[simp] theorem entitySet_insert (record : FieldList) (key : String) (value : Value) :
    (record.insert key value).entitySet = record.entitySet := rfl

@[simp] theorem entitySet_append (record : FieldList) (key : String) (value : Value) :
    (record.append key value).entitySet = record.entitySet := rfl

@[simp] theorem fields_insert (record : FieldList) (key : String) (value : Value) :
    (record.insert key value).fields = record.fields.insert key value := rfl

@[simp] theorem fields_append (record : FieldList) (key : String) (value : Value) :
    (record.append key value).fields = record.fields.moveToEnd key value := rfl

theorem mem_keys_iff {record : FieldList} {key : String} :
    key ∈ record.keys ↔ ∃ value, record.get? key = some value :=
  Ordered.mem_keys_iff

theorem get?_insert (record : FieldList) (key k : String) (value : Value) :
    (record.insert key value).get? k = if k = key then some value else record.get? k :=
  Ordered.get?_insert key k value record.fields

end FieldList

/-! ### What is sent -/

mutual

/-- What is sent for a value.  An absent value on its own is sent as null; inside a record it is
not sent at all. -/
def Value.toJson : Value → Json
  | .scalar s => s.toJson
  | .nested record => record.toJson
  | .nestedList records => .array (FieldList.listToJson records)
  | .absent => .null

/-- What is sent for a record: an object with a member for each field that is not absent. -/
def FieldList.toJson : FieldList → Json
  | .mk _ fields => .object (FieldList.members fields)

/-- What is sent for several records. -/
def FieldList.listToJson : List FieldList → List Json
  | [] => []
  | record :: rest => record.toJson :: FieldList.listToJson rest

/-- The members that are sent for some fields. -/
def FieldList.members : List (String × Value) → List (String × Json)
  | [] => []
  | (key, value) :: rest =>
    if value.isAbsent then FieldList.members rest
    else (key, value.toJson) :: FieldList.members rest

end

@[simp] theorem FieldList.listToJson_eq_map (records : List FieldList) :
    FieldList.listToJson records = records.map FieldList.toJson := by
  induction records with
  | nil => rfl
  | cons record rest ih => simp [FieldList.listToJson, ih]

theorem FieldList.members_eq_filterMap (fields : List (String × Value)) :
    FieldList.members fields =
      (fields.filter fun f => !f.2.isAbsent).map fun f => (f.1, f.2.toJson) := by
  induction fields with
  | nil => rfl
  | cons f rest ih => cases h : f.2.isAbsent <;> simp [FieldList.members, h, ih]

/-! ### Names at every depth -/

mutual

/-- No record inside a value names a field twice. -/
def Value.WellFormed : Value → Prop
  | .scalar _ => True
  | .nested record => record.WellFormed
  | .nestedList records => FieldList.AllWellFormed records
  | .absent => True

/-- Neither the record nor any record inside it names a field twice. -/
def FieldList.WellFormed : FieldList → Prop
  | .mk _ fields => (Ordered.keys fields).Nodup ∧ FieldList.ValuesWellFormed fields

/-- No record of a list names a field twice. -/
def FieldList.AllWellFormed : List FieldList → Prop
  | [] => True
  | record :: rest => record.WellFormed ∧ FieldList.AllWellFormed rest

/-- No record inside the values of some fields names a field twice. -/
def FieldList.ValuesWellFormed : List (String × Value) → Prop
  | [] => True
  | (_, value) :: rest => value.WellFormed ∧ FieldList.ValuesWellFormed rest

end

end OData
