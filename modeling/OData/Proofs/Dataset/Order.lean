/-
The order of the terms of a query over declared records.

The capability of a declared set resolves a relationship by the field at hand, which is a foreign key
or the key of the set, and the records that it finds appear under the wire name of a navigation field
or under the name of the relationship.  The check of a definition keeps neither of these names from
being the wire name of another field.  So two relationships may appear under one name, and one may
appear in the place of the field that another is resolved by, which then finds nothing; which of them
is lost depends on the order of the terms.  Everywhere else the order does not matter.

* `SetDefinition.expansionName` — the name under which a relationship appears;
* `Definition.Apart` — relationships of a set that do not get in each other's way;
* `Definition.apart_of_nodup` — they do not where each has a name of its own;
* `Definition.expanded_of_perm_record` — **the order of the terms does not change the data**.
-/

import OData.Proofs.Dataset.Join
import OData.Proofs.Request.Order

set_option relaxedAutoImplicit false
set_option autoImplicit false

namespace OData

open Query

/-- The wire name of the first navigation field of a relationship, or the name of the relationship
itself if there is none. -/
def SetDefinition.expansionName (set : SetDefinition) (relationship : String) : String :=
  ((set.fields.find? fun field => field.toField.relationship? = some relationship).map
    (·.toField.wireName)).getD relationship

/-- A relationship appears under its own name, or under the wire name of a navigation field. -/
theorem SetDefinition.expansionName_cases (set : SetDefinition) (relationship : String) :
    (∃ field ∈ set.fields, field.toField.relationship? = some relationship ∧
        set.expansionName relationship = field.toField.wireName) ∨
      (∀ field ∈ set.fields, field.toField.relationship? ≠ some relationship) ∧
        set.expansionName relationship = relationship := by
  rw [expansionName]
  cases hfind : set.fields.find? fun field => field.toField.relationship? = some relationship with
  | none => exact .inr ⟨by simpa using hfind, rfl⟩
  | some field =>
      exact .inl ⟨field, List.mem_of_find?_eq_some hfind, by simpa using List.find?_some hfind, rfl⟩

namespace Definition

/-! ### What a link looks at -/

theorem readsBy_capability (dataset : Dataset) (links : Ordered Link) :
    ReadsBy (dataset.capability links) fun name => (Ordered.get? name links).map (·.localName) where
  unknown h record text := by
    rw [Option.map_eq_none_iff] at h
    rw [Dataset.capability, h, Option.bind_none]
  known h _ _ hsame text := by
    obtain ⟨link, hlink, rfl⟩ := Option.map_eq_some_iff.1 h
    simp only [Dataset.capability, hlink, Option.bind_some, Link.resolve, hsame]

theorem readsBy_none : ReadsBy Capability.none fun _ => none where
  unknown _ _ _ := rfl
  known h := nomatch h

variable (definition : Definition)

/-- The wire name of the field at hand that resolves a relationship of a set. -/
def fieldAtHand? (name : String) (set : SetDefinition) (relationship : String) : Option String :=
  if set.capabilities.expand then
    (Ordered.get? relationship (linksOf definition (definition.typeOf name set))).map (·.localName)
  else none

/-- Relationships of a set that a query asks for do not get in each other's way: none appears under
the name of another, or in the place of the field that resolves another. -/
def Apart (name : String) (set : SetDefinition) (asked : List String) : Prop :=
  ∀ r ∈ definition.relationshipsFrom name, ∀ s ∈ definition.relationshipsFrom name,
    r.name ∈ asked → s.name ∈ asked → r.name ≠ s.name → ∀ key ∈ definition.foreignKey? s,
      set.expansionName r.name ≠ set.expansionName s.name ∧
        set.expansionName r.name ≠ (definition.typeOf name set).wireNameOf (localName s key set)

variable {definition} {name : String} {set : SetDefinition}

theorem readsBy_toRegistry (hd : definition.entitySets.Distinct)
    (hset : definition.set? name = some set) :
    ReadsBy (definition.toRegistry.value.capability name) (definition.fieldAtHand? name set) := by
  rw [capability_toRegistry definition hd hset]
  split
  · rename_i hexpand
    have hlocal : definition.fieldAtHand? name set = fun relationship =>
        (Ordered.get? relationship (linksOf definition (definition.typeOf name set))).map
          (·.localName) := by
      funext relationship
      rw [fieldAtHand?, if_pos hexpand]
    rw [hlocal]
    exact readsBy_capability _ _
  · rename_i hexpand
    have hlocal : definition.fieldAtHand? name set = fun _ => none := by
      funext relationship
      rw [fieldAtHand?, if_neg hexpand]
    rw [hlocal]
    exact readsBy_none

/-- The field at hand is that of a declared relationship. -/
theorem exists_relationship_of_fieldAtHand? {relationship wire : String}
    (h : definition.fieldAtHand? name set relationship = some wire) :
    ∃ r ∈ definition.relationshipsFrom name, r.name = relationship ∧
      ∃ key, definition.foreignKey? r = some key ∧
        wire = (definition.typeOf name set).wireNameOf (localName r key set) := by
  rw [fieldAtHand?] at h
  split at h
  · obtain ⟨link, hlink, rfl⟩ := Option.map_eq_some_iff.1 h
    obtain ⟨r, hr, rfl, hthis⟩ := exists_relationship_of_get?_linksOf hlink
    obtain ⟨key, hkey, rfl⟩ := Option.map_eq_some_iff.1 hthis
    refine ⟨r, hr, rfl, key, hkey, ?_⟩
    cases hcard : r.cardinality with
    | oneToOne => simp only [localName, hcard]
    | oneToMany => simp only [localName, hcard, keyName_typeOf]
  · cases h

theorem expansionKey_record (hd : definition.entitySets.Distinct)
    (hset : definition.set? name = some set) (members : Ordered Json) (asked : List String) :
    expansionKey definition.toRegistry.value ((definition.record name set members).introspect asked)
      = set.expansionName := by
  funext relationship
  have hentity : ((definition.record name set members).introspect asked).entitySet = some name :=
    Record.entitySet_introspect _ asked
  rw [expansionKey, hentity, Option.bind_some, Registry.type?, set?_toRegistry definition hd, hset,
    Option.map_some, Option.map_some, Option.bind_some, typeOf, List.find?_map, Option.map_map]
  rfl

theorem Apart.keepApart {asked : List String} (h : definition.Apart name set asked) :
    KeepApart (definition.fieldAtHand? name set) set.expansionName asked := by
  intro a ha b hb hne hknown wire hwire
  obtain ⟨_, hthis⟩ := Option.isSome_iff_exists.1 hknown
  obtain ⟨r, hr, rfl, -⟩ := exists_relationship_of_fieldAtHand? hthis
  obtain ⟨s, hs, rfl, key, hkey, rfl⟩ := exists_relationship_of_fieldAtHand? hwire
  exact h r hr s hs ha hb hne key hkey

/-- Relationships do not get in each other's way where each of them has a name of its own: the wire
names of the set are different, and a relationship that has no navigation field is not called like
one of them. -/
theorem apart_of_nodup (h : definition.IsValid) (hset : definition.set? name = some set)
    (hwire : set.wireNames.Nodup)
    (hfree : ∀ r ∈ definition.relationshipsFrom name, r.name ∈ set.wireNames →
      ∃ field ∈ set.fields, field.toField.relationship? = some r.name) (asked : List String) :
    definition.Apart name set asked := by
  have hinj : ∀ field ∈ set.fields, ∀ other ∈ set.fields,
      field.toField.wireName = other.toField.wireName → field = other :=
    fun field hfield other hother => List.inj_on_of_nodup_map hwire hfield hother
  intro r hr s hs _ _ hne key hkey
  obtain ⟨hmem, hsource⟩ := List.mem_filter.1 hs
  obtain rfl : s.source = name := by simpa using hsource
  obtain ⟨plain, hplain, hlocal, hvalue⟩ := h.exists_localField hmem hset hkey
  rw [← hlocal, wireNameOf_typeOf definition (h.set hset).names hplain]
  rcases set.expansionName_cases r.name with ⟨field, hfield, hrel, heq⟩ | ⟨hnone, heq⟩
  · -- under the wire name of a navigation field, which no other field has
    rw [heq]
    constructor
    · rcases set.expansionName_cases s.name with ⟨other, hother, hrel', heq'⟩ | ⟨hnone', heq'⟩
      · rw [heq']
        intro hsame
        obtain rfl := hinj field hfield other hother hsame
        exact hne (Option.some.inj (hrel.symm.trans hrel'))
      · rw [heq']
        intro hsame
        obtain ⟨other, hother, hrel'⟩ := hfree s hs (hsame ▸ List.mem_map_of_mem hfield)
        exact hnone' other hother hrel'
    · intro hsame
      obtain rfl := hinj field hfield plain hplain hsame
      exact absurd (FieldDefinition.relationship?_toField_iff.1 hrel).1 (by simp [hvalue])
  · -- under the name of the relationship, which no field has
    have hnotMem : r.name ∉ set.wireNames := fun hmem =>
      have ⟨field, hfield, hrel⟩ := hfree r hr hmem
      hnone field hfield hrel
    rw [heq]
    constructor
    · rcases set.expansionName_cases s.name with ⟨other, hother, -, heq'⟩ | ⟨-, heq'⟩
      · rw [heq']
        exact fun hsame => hnotMem (hsame ▸ List.mem_map_of_mem hother)
      · rwa [heq']
    · exact fun hsame => hnotMem (hsame ▸ List.mem_map_of_mem hplain)

/-- **The order of the terms does not change the data**, where the relationships that they name do
not get in each other's way: the field list of a declared record has the same value under every name,
and only the expanded records at its end may stand in another order. -/
theorem expanded_of_perm_record (hd : definition.entitySets.Distinct)
    (hset : definition.set? name = some set) (members : Ordered Json)
    {items items' : List ExpandItem} (hperm : items.Perm items')
    (hnames : (items.map (·.name)).Nodup) (hapart : definition.Apart name set (items.map (·.name))) :
    let expanded := fun items =>
      ((definition.record name set members).expanded definition.toRegistry.value items).value
    (∀ key, (expanded items).get? key = (expanded items').get? key) ∧
      ∃ kept moved moved', moved.Perm moved' ∧ (expanded items).keys = kept ++ moved ∧
        (expanded items').keys = kept ++ moved' := by
  refine Record.expanded_of_perm (readsBy_toRegistry hd hset) hperm hnames ?_
  rw [expansionKey_record hd hset]
  exact hapart.keepApart

/-! ### A help desk -/

/-- A ticket of some person. -/
def deskTicket (column : String) : Ordered Json := [("ID", .int 1), (column, .string "ada")]

/-- Tickets with a column for the login of a person. -/
def deskTickets (column : String) : SetDefinition where
  fields := [{ name := "ID", typeWord := "int", isKey := true }, { name := column }]
  records := [deskTicket column]

/-- Entities that are found by a login and have one more field. -/
def byLogin (field value : String) : SetDefinition where
  fields := [{ name := "Login", isKey := true }, { name := field }]
  records := [[("Login", .string "ada"), (field, .string value)]]

/-- The tickets of a help desk: one column leads to the person and to the account of the person. -/
def desk (column : String) : Definition where
  version := "1.0"
  entitySets := [("Tickets", deskTickets column), ("People", byLogin "Name" "Ada"),
    ("Accounts", byLogin "Plan" "gold")]
  relationships := [⟨"Tickets", "Owner", "People", .oneToOne, some column⟩,
    ⟨"Tickets", "Account", "Accounts", .oneToOne, some column⟩]

/-- The terms that ask for the person and for the account. -/
def deskItems : List ExpandItem := [⟨"Owner", ""⟩, ⟨"Account", ""⟩]

theorem expanded_of_perm_record_desk :
    (desk "Login").problems = [] ∧ (desk "Login").set? "Tickets" = some (deskTickets "Login") ∧
      deskTicket "Login" ∈ (deskTickets "Login").records ∧
      (desk "Login").Apart "Tickets" (deskTickets "Login") (deskItems.map (·.name)) ∧
      let expanded := fun items => (((desk "Login").record "Tickets" (deskTickets "Login")
        (deskTicket "Login")).expanded (desk "Login").toRegistry.value items).value
      (∀ key, (expanded deskItems).get? key = (expanded deskItems.reverse).get? key) ∧
        ∃ kept moved moved', moved.Perm moved' ∧ (expanded deskItems).keys = kept ++ moved ∧
          (expanded deskItems.reverse).keys = kept ++ moved' :=
  have hvalid : (desk "Login").problems = [] := rfl
  have hapart : (desk "Login").Apart "Tickets" (deskTickets "Login") (deskItems.map (·.name)) :=
    apart_of_nodup ((desk "Login").problems_eq_nil_iff.1 hvalid) rfl (by decide) (by decide) _
  ⟨hvalid, rfl, List.mem_cons_self, hapart,
    @expanded_of_perm_record (desk "Login") "Tickets" (deskTickets "Login") (by decide) rfl
      (deskTicket "Login") deskItems deskItems.reverse (List.reverse_perm _).symm (by decide) hapart⟩

/-- The desk has no faults if its column is called like a relationship, and yet the account is not
found after the person has been expanded in the place of the login. -/
theorem not_expanded_of_perm_desk :
    (desk "Owner").problems = [] ∧ (desk "Owner").set? "Tickets" = some (deskTickets "Owner") ∧
      deskTicket "Owner" ∈ (deskTickets "Owner").records ∧
      deskItems.Perm deskItems.reverse ∧ (deskItems.map (·.name)).Nodup ∧
      let expanded := fun items => (((desk "Owner").record "Tickets" (deskTickets "Owner")
        (deskTicket "Owner")).expanded (desk "Owner").toRegistry.value items).value
      (expanded deskItems).get? "Account" = none ∧
        (expanded deskItems.reverse).get? "Account" = some (.nested (.mk (some "Accounts")
          [("Login", .scalar (.string "ada")), ("Plan", .scalar (.string "gold"))])) := by
  refine ⟨rfl, rfl, List.mem_cons_self, (List.reverse_perm _).symm, by decide, ?_⟩
  simp only [Record.value_expanded]
  exact ⟨rfl, rfl⟩

end Definition

end OData
