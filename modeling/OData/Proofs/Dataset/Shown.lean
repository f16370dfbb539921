/-
What is shown of a declared record.

Without a query a record shows the fields that stand for no relationship, in the order of
declaration, each under its wire name and with the value that is declared.  The check of a definition
keeps declared names apart but not wire names, which a field list holds once each: of two fields that
are shown under one name only the later is shown, at the place of the earlier.  That is the only way
in which a declared value can get lost.

* `SetDefinition.shownFields`, `SetDefinition.shownNames` — the fields that are always shown;
* `Definition.Shows` — what it means that a declared field is shown;
* `Definition.shows_all_iff` — **everything is shown exactly if no two fields share a wire name**.
-/

import OData.Proofs.Dataset.Join

set_option relaxedAutoImplicit false
set_option autoImplicit false

namespace OData

open Query

/-- The fields of a set that are shown whatever a query expands, in the order of declaration. -/
def SetDefinition.shownFields (set : SetDefinition) : List FieldDefinition :=
  set.fields.filter fun field => field.relationship?.isNone

/-- The wire names of the fields that are always shown. -/
def SetDefinition.shownNames (set : SetDefinition) : List String :=
  set.shownFields.map (·.toField.wireName)

/-- What is neither an array nor an object is a plain value. -/
theorem Scalar.exists_ofJson? {json : Json} (h : json.isContainer = false) :
    ∃ scalar, Scalar.ofJson? json = some scalar := by
  cases json with
  | array | object => cases h
  | null | bool | int | decimal | string => exact ⟨_, rfl⟩

/-- Inserting entries keeps all their names exactly if no two of them are the same. -/
theorem Ordered.keys_ofList_eq_iff {β : Type} (pairs : List (String × β)) :
    (Ordered.ofList pairs).keys = pairs.map Prod.fst ↔ (pairs.map Prod.fst).Nodup := by
  constructor
  · intro h
    have hd : (Ordered.ofList pairs).keys.Nodup := Ordered.distinct_ofList pairs
    rwa [h] at hd
  · intro h
    rw [Ordered.ofList_eq_self h]
    rfl

namespace Definition

/-- A field list shows a declared field of a record: with the value that the record has for it, or
as absent if it has none. -/
def Shows (fields : FieldList) (members : Ordered Json) (field : FieldDefinition) : Prop :=
  match Ordered.get? field.name members with
  | some json => ∃ scalar, Scalar.ofJson? json = some scalar ∧
      fields.get? field.toField.wireName = some (.scalar scalar)
  | none => fields.get? field.toField.wireName = some .absent

variable {definition : Definition} {name : String} {set : SetDefinition} {members : Ordered Json}

theorem isWritten_nil (field : FieldDefinition) :
    Record.isWritten [] field.toField = field.relationship?.isNone := by
  have hbound : field.toField.expandOnly = field.relationship? := rfl
  rw [Record.isWritten, hbound]
  cases field.relationship? <;> rfl

/-- The names and values that are always shown of a declared record. -/
theorem written_record (hd : members.Distinct) :
    (definition.record name set members).written []
      = set.shownFields.map fun field => (field.toField.wireName,
          (((Ordered.get? field.name members).bind Scalar.ofJson?).map Value.scalar).getD
            .absent) := by
  have hfields : (definition.typeOf name set).fields.filter (Record.isWritten [])
      = set.shownFields.map (·.toField) := by
    rw [typeOf, List.filter_map]
    exact congrArg _ (List.filter_congr fun field _ => isWritten_nil field)
  have hvalue : ∀ field : FieldDefinition,
      (definition.record name set members).value? field.toField.name
        = ((Ordered.get? field.name members).bind Scalar.ofJson?).map Value.scalar := by
    intro field
    rw [record, SeedRecord.value?_toRecord, SeedRecord.get?, seed, get?_plainValues hd]
    rfl
  change ((definition.typeOf name set).fields.filter (Record.isWritten [])).map _ = _
  rw [hfields, List.map_map]
  refine List.map_congr_left fun field _ => ?_
  rw [Function.comp_apply, hvalue]

/-- Different wire names: each field that is always shown is found under its own. -/
theorem shows_introspect (hset : set.IsValid definition name) (hmembers : members ∈ set.records)
    (hd : members.Distinct) (hnames : set.shownNames.Nodup) {field : FieldDefinition}
    (hfield : field ∈ set.shownFields) :
    Shows ((definition.record name set members).introspect []) members field := by
  have hdistinct : Ordered.Distinct ((definition.record name set members).written []) := by
    rw [Ordered.Distinct, written_record hd, Ordered.keys, List.map_map]
    exact hnames
  have hget : ((definition.record name set members).introspect []).get? field.toField.wireName
      = some ((((Ordered.get? field.name members).bind Scalar.ofJson?).map Value.scalar).getD
          .absent) := by
    rw [FieldList.get?, Record.fields_introspect, Ordered.ofList_eq_self hdistinct]
    refine Ordered.get?_of_mem hdistinct ?_
    rw [written_record hd]
    exact List.mem_map_of_mem hfield
  rw [Shows]
  cases hmember : Ordered.get? field.name members with
  | none => simpa [hmember] using hget
  | some json =>
      -- the check of the definition has refused arrays and objects
      obtain ⟨_, -, -, hplain⟩ := hset.records members hmembers _ (Ordered.mem_of_get? hmember)
      obtain ⟨scalar, hscalar⟩ := Scalar.exists_ofJson? hplain
      exact ⟨scalar, hscalar, by simpa [hmember, hscalar] using hget⟩

/-- **Everything is shown exactly if no two fields share a wire name.**  Without a query, the field
list of a declared record has the wire names of the fields that are always shown, in the order of
declaration, and shows each of these fields, if and only if the wire names are different. -/
theorem shows_all_iff (h : definition.problems = []) (hk : definition.Keyed)
    (hset : definition.set? name = some set) (hmembers : members ∈ set.records) :
    let fields := ((definition.record name set members).answer definition.toRegistry.value {}).value
    (fields.keys = set.shownNames ∧ ∀ field ∈ set.shownFields, Shows fields members field) ↔
      set.shownNames.Nodup := by
  intro fields
  have hd := hk.distinct_record hset hmembers
  have hfields : fields = (definition.record name set members).introspect [] :=
    Record.value_answer_empty _ _
  have hwritten : ((definition.record name set members).written []).map Prod.fst
      = set.shownNames := by
    rw [written_record hd, List.map_map]
    rfl
  have hkeys : fields.keys = set.shownNames ↔ set.shownNames.Nodup := by
    rw [hfields, FieldList.keys, Record.fields_introspect, ← hwritten]
    exact Ordered.keys_ofList_eq_iff _
  rw [hkeys, and_iff_left_iff_imp]
  intro hnames field hfield
  rw [hfields]
  exact shows_introspect ((definition.problems_eq_nil_iff.1 h).set hset) hmembers hd hnames hfield

theorem shows_all_iff_shop :
    shop.problems = [] ∧ shop.Keyed ∧ shop.set? "Orders" = some shopOrders ∧
      shopOrder ∈ shopOrders.records ∧ shopOrders.shownNames = ["ID", "Buyer"] ∧
      let fields := ((shop.record "Orders" shopOrders shopOrder).answer shop.toRegistry.value {}).value
      fields.keys = shopOrders.shownNames ∧
        ∀ field ∈ shopOrders.shownFields, Shows fields shopOrder field :=
  have hmembers : shopOrder ∈ shopOrders.records := List.mem_cons_self
  ⟨problems_shop, keyed_shop, rfl, hmembers, rfl,
    (@shows_all_iff shop "Orders" shopOrders shopOrder problems_shop keyed_shop rfl hmembers).2
      (by decide)⟩

/-! ### An archive -/

/-- A book with two titles. -/
def archiveBook : Ordered Json :=
  [("ID", .int 1), ("Title", .string "Notes"), ("Subtitle", .string "On the Engine")]

/-- The first title of a book. -/
def archiveTitle : FieldDefinition := { name := "Title" }

/-- Books, the titles of which are shown under one name. -/
def archiveBooks : SetDefinition where
  fields := [{ name := "ID", typeWord := "int", isKey := true }, archiveTitle,
    { name := "Subtitle", displayName := some "Title" }]
  records := [archiveBook]

/-- An archive of books. -/
def archive : Definition := { version := "1.0", entitySets := [("Books", archiveBooks)] }

/-- The archive has no faults, and yet the first title of its book is not shown. -/
theorem not_shows_archive :
    archive.problems = [] ∧ archive.Keyed ∧ archive.set? "Books" = some archiveBooks ∧
      archiveBook ∈ archiveBooks.records ∧ archiveTitle ∈ archiveBooks.shownFields ∧
      let fields :=
        ((archive.record "Books" archiveBooks archiveBook).answer archive.toRegistry.value {}).value
      fields = .mk (some "Books")
          [("ID", .scalar (.int 1)), ("Title", .scalar (.string "On the Engine"))] ∧
        fields.keys ≠ archiveBooks.shownNames ∧ ¬ Shows fields archiveBook archiveTitle := by
  have hfields : ((archive.record "Books" archiveBooks archiveBook).answer
      archive.toRegistry.value {}).value = .mk (some "Books")
        [("ID", .scalar (.int 1)), ("Title", .scalar (.string "On the Engine"))] :=
    Record.value_answer_empty _ _
  refine ⟨rfl, ⟨by decide, by decide⟩, rfl, List.mem_cons_self, by decide, hfields, ?_, ?_⟩
  · rw [hfields]
    decide
  · rw [hfields]
    rintro ⟨scalar, hscalar, hshown⟩
    obtain rfl := Option.some.inj hscalar
    have hsame : "On the Engine" = "Notes" :=
      Scalar.string.inj (Value.scalar.inj (Option.some.inj hshown))
    exact absurd hsame (by decide)

end Definition

end OData
