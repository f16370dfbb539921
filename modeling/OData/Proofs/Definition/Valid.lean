/-
What the checks of a definition guarantee.

`Definition.problems` lists faults; this module says what it means that there are none.  The lists
of faults follow the parts of a definition, and so do the properties: what holds of each
relationship, of each field and of each record, and which names are distinct.

Main definitions:

* `RelationshipDefinition.IsValid`, `SetDefinition.IsValid` — the properties of the parts;
* `Definition.IsValid` — the properties of a definition.

Main results:

* `Definition.relationshipProblems_eq_nil_iff`, `Definition.setProblems_eq_nil_iff` — the parts;
* `Definition.problems_eq_nil_iff` — **a definition without faults is a valid one**, and the other
  way round.
-/

import OData.Definition.Validation

set_option relaxedAutoImplicit false
set_option autoImplicit false

namespace OData

/-! ### Valid parts -/

/-- The set that has the foreign key of a relationship. -/
def RelationshipDefinition.keyOwner (r : RelationshipDefinition) : String :=
  match r.cardinality with
  | .oneToOne => r.source
  | .oneToMany => r.target

/-- A relationship connects declared sets by a plain field of one of them. -/
structure RelationshipDefinition.IsValid (definition : Definition) (r : RelationshipDefinition) :
    Prop where
  source : ∃ set, definition.set? r.source = some set
  target : ∃ set, definition.set? r.target = some set
  foreignKey : ∃ key owner, definition.foreignKey? r = some key ∧
    definition.set? r.keyOwner = some owner ∧ owner.hasPlainField key = true

/-- A member of a record holds a plain value of a plain field. -/
def SetDefinition.HoldsMember (set : SetDefinition) (member : String × Json) : Prop :=
  ∃ field, set.fields.find? (·.name == member.1) = some field ∧ field.isNavigation = false ∧
    member.2.isContainer = false

/-- A set has fields of different names, a key without navigation fields, fields bound to its own
relationships, and records of plain values. -/
structure SetDefinition.IsValid (definition : Definition) (name : String) (set : SetDefinition) :
    Prop where
  fields : set.fields ≠ []
  names : (set.fields.map (·.name)).Nodup
  bound : ∀ field ∈ set.fields, ∀ relationship ∈ field.relationship?,
    definition.hasRelationship name relationship = true
  plainKey : ∀ field ∈ set.fields, field.isKey = true → field.isNavigation = false
  key : ∃ field ∈ set.fields, field.isKey = true
  records : ∀ record ∈ set.records, ∀ member ∈ record, set.HoldsMember member

namespace Definition

/-- A version and a namespace that can be written, relationships of different names from each set,
and valid parts. -/
structure IsValid (definition : Definition) : Prop where
  version : definition.version = "1.0"
  schemaName_ne : definition.schemaName ≠ ""
  schemaName_plain : ∀ c ∈ definition.schemaName.toList, Text.isBlank c = false ∧ c ≠ '"'
  names : (definition.relationships.map fun r => (r.source, r.name)).Nodup
  relationships : ∀ r ∈ definition.relationships, r.IsValid definition
  sets : ∀ entry ∈ definition.entitySets, entry.2.IsValid definition entry.1

variable (definition : Definition)

@[simp] theorem problemIf_eq_nil_iff {condition : Bool} {problem : Problem} :
    problemIf condition problem = [] ↔ condition = false := by
  cases condition <;> simp [problemIf]

/-- Names are distinct and new if the first of them is new, and the others are so after it. -/
theorem nodup_and_notMem_cons_iff {α κ : Type} (name : α → κ) (seen : List κ) (a : α)
    (rest : List α) :
    (((a :: rest).map name).Nodup ∧ ∀ b ∈ a :: rest, name b ∉ seen) ↔
      name a ∉ seen ∧ (rest.map name).Nodup ∧ ∀ b ∈ rest, name b ∉ name a :: seen := by
  rw [List.map_cons, List.nodup_cons, List.forall_mem_cons]
  constructor
  · rintro ⟨⟨hfirst, hnodup⟩, hnew, hrest⟩
    -- the first name is one of those seen from the second on
    refine ⟨hnew, hnodup, fun b hb hmem => ?_⟩
    rcases List.mem_cons.1 hmem with heq | hmem
    · exact hfirst (List.mem_map.2 ⟨b, hb, heq⟩)
    · exact hrest b hb hmem
  · rintro ⟨hnew, hnodup, hrest⟩
    refine ⟨⟨fun hmem => ?_, hnodup⟩, hnew, fun b hb hmem => hrest b hb (List.mem_cons_of_mem _ hmem)⟩
    obtain ⟨b, hb, heq⟩ := List.mem_map.1 hmem
    exact hrest b hb (List.mem_cons.2 (.inl heq))

/-! ### Relationships -/

/-- The checks of one relationship, less the one of its name. -/
theorem isValid_relationship_iff (r : RelationshipDefinition) :
    (definition.set? r.source).isNone = false ∧ (definition.set? r.target).isNone = false ∧
      foreignKeyProblems definition r = [] ↔ r.IsValid definition := by
  constructor
  · rintro ⟨hsource, htarget, hkey⟩
    obtain ⟨source, hsource⟩ : ∃ set, definition.set? r.source = some set := by
      simpa [Option.isSome_iff_exists] using hsource
    obtain ⟨target, htarget⟩ : ∃ set, definition.set? r.target = some set := by
      simpa [Option.isSome_iff_exists] using htarget
    simp only [foreignKeyProblems, hsource, htarget] at hkey
    cases hname : definition.foreignKey? r with
    | none => simp [hname] at hkey
    | some key =>
        -- which of the two sets has the foreign key depends on the cardinality
        refine ⟨⟨source, hsource⟩, ⟨target, htarget⟩, key, ?_⟩
        cases hcard : r.cardinality with
        | oneToOne =>
            refine ⟨source, hname, ?_, by simpa [hname, hcard] using hkey⟩
            rw [RelationshipDefinition.keyOwner, hcard, hsource]
        | oneToMany =>
            refine ⟨target, hname, ?_, by simpa [hname, hcard] using hkey⟩
            rw [RelationshipDefinition.keyOwner, hcard, htarget]
  · rintro ⟨⟨source, hsource⟩, ⟨target, htarget⟩, key, owner, hname, howner, hplain⟩
    refine ⟨by simp [hsource], by simp [htarget], ?_⟩
    cases hcard : r.cardinality with
    | oneToOne =>
        rw [RelationshipDefinition.keyOwner, hcard] at howner
        obtain rfl := Option.some.inj (hsource.symm.trans howner)
        simp [foreignKeyProblems, hsource, htarget, hname, hcard, hplain]
    | oneToMany =>
        rw [RelationshipDefinition.keyOwner, hcard] at howner
        obtain rfl := Option.some.inj (htarget.symm.trans howner)
        simp [foreignKeyProblems, hsource, htarget, hname, hcard, hplain]

theorem relationshipProblems_eq_nil_iff (seen : List (String × String))
    (rs : List RelationshipDefinition) :
    relationshipProblems definition seen rs = [] ↔
      (rs.map fun r => (r.source, r.name)).Nodup ∧ (∀ r ∈ rs, (r.source, r.name) ∉ seen) ∧
        ∀ r ∈ rs, r.IsValid definition := by
  -- the names seen so far grow along the list
  induction rs generalizing seen with
  | nil => simp [relationshipProblems]
  | cons r rs ih =>
      rw [← and_assoc, nodup_and_notMem_cons_iff fun r : RelationshipDefinition => (r.source, r.name),
        List.forall_mem_cons, ← isValid_relationship_iff]
      simp only [relationshipProblems, List.append_eq_nil_iff, problemIf_eq_nil_iff, ih,
        List.contains_eq_mem, decide_eq_false_iff_not]
      constructor
      · rintro ⟨⟨⟨⟨hsource, htarget⟩, hnew⟩, hkey⟩, hnames, hrest, hrs⟩
        exact ⟨⟨hnew, hnames, hrest⟩, ⟨hsource, htarget, hkey⟩, hrs⟩
      · rintro ⟨⟨hnew, hnames, hrest⟩, ⟨hsource, htarget, hkey⟩, hrs⟩
        exact ⟨⟨⟨⟨hsource, htarget⟩, hnew⟩, hkey⟩, hnames, hrest, hrs⟩

/-! ### Fields -/

theorem fieldProblems_eq_nil_iff (set : String) (seen : List String)
    (fields : List FieldDefinition) :
    fieldProblems definition set seen fields = [] ↔
      (fields.map (·.name)).Nodup ∧ (∀ field ∈ fields, field.name ∉ seen) ∧
        (∀ field ∈ fields, ∀ relationship ∈ field.relationship?,
          definition.hasRelationship set relationship = true) ∧
        ∀ field ∈ fields, field.isKey = true → field.isNavigation = false := by
  induction fields generalizing seen with
  | nil => simp [fieldProblems]
  | cons field fields ih =>
      rw [← and_assoc, nodup_and_notMem_cons_iff FieldDefinition.name, List.forall_mem_cons,
        List.forall_mem_cons]
      have hkey : (field.isKey && field.isNavigation) = false ↔
          (field.isKey = true → field.isNavigation = false) := by
        cases field.isKey <;> simp
      simp only [fieldProblems, List.append_eq_nil_iff, problemIf_eq_nil_iff, ih, hkey,
        List.contains_eq_mem, decide_eq_false_iff_not]
      -- The binding of the field to a relationship is checked only if it has one.
      cases field.relationship? with
      | none =>
          constructor
          · rintro ⟨⟨⟨hnew, -⟩, hplain⟩, hnames, hrest, hbound, hplains⟩
            exact ⟨⟨hnew, hnames, hrest⟩, ⟨nofun, hbound⟩, hplain, hplains⟩
          · rintro ⟨⟨hnew, hnames, hrest⟩, ⟨-, hbound⟩, hplain, hplains⟩
            exact ⟨⟨⟨hnew, rfl⟩, hplain⟩, hnames, hrest, hbound, hplains⟩
      | some relationship =>
          constructor
          · rintro ⟨⟨⟨hnew, hthis⟩, hplain⟩, hnames, hrest, hbound, hplains⟩
            exact ⟨⟨hnew, hnames, hrest⟩, ⟨by simpa using hthis, hbound⟩, hplain, hplains⟩
          · rintro ⟨⟨hnew, hnames, hrest⟩, ⟨hthis, hbound⟩, hplain, hplains⟩
            exact ⟨⟨⟨hnew, by simpa using hthis⟩, hplain⟩, hnames, hrest, hbound, hplains⟩

/-! ### Records -/

theorem memberProblems_eq_nil_iff (name : String) (set : SetDefinition) (index : Nat)
    (member : String × Json) :
    memberProblems name set index member = [] ↔ set.HoldsMember member := by
  rw [memberProblems, SetDefinition.HoldsMember]
  cases hfield : set.fields.find? (·.name == member.1) with
  | none => simp
  | some field => cases hnav : field.isNavigation <;> simp [hnav]

theorem recordProblems_eq_nil_iff (name : String) (set : SetDefinition) (index : Nat)
    (records : List (Ordered Json)) :
    recordProblems name set index records = [] ↔
      ∀ record ∈ records, ∀ member ∈ record, set.HoldsMember member := by
  induction records generalizing index with
  | nil => simp [recordProblems]
  | cons record records ih =>
      simp only [recordProblems, List.append_eq_nil_iff, List.flatMap_eq_nil_iff,
        memberProblems_eq_nil_iff, ih, List.forall_mem_cons]

/-! ### Whole definitions -/

theorem setProblems_eq_nil_iff (name : String) (set : SetDefinition) :
    setProblems definition (name, set) = [] ↔ set.IsValid definition name := by
  rw [setProblems]
  by_cases hfields : set.fields = []
  · simp only [hfields, List.isEmpty_nil, if_true, List.cons_ne_nil, false_iff]
    exact fun h => h.fields hfields
  · have hkey : (!set.fields.any (·.isKey)) = false ↔ ∃ field ∈ set.fields, field.isKey = true := by
      simp
    rw [if_neg (by simpa using hfields)]
    simp only [List.append_eq_nil_iff, problemIf_eq_nil_iff, fieldProblems_eq_nil_iff,
      recordProblems_eq_nil_iff, hkey]
    constructor
    · rintro ⟨⟨⟨hnames, -, hbound, hplain⟩, hsome⟩, hrecords⟩
      exact ⟨hfields, hnames, hbound, hplain, hsome, hrecords⟩
    · rintro ⟨-, hnames, hbound, hplain, hsome, hrecords⟩
      exact ⟨⟨⟨hnames, by simp, hbound, hplain⟩, hsome⟩, hrecords⟩

theorem headProblems_eq_nil_iff :
    headProblems definition = [] ↔ definition.version = "1.0" ∧ definition.schemaName ≠ "" ∧
      ∀ c ∈ definition.schemaName.toList, Text.isBlank c = false ∧ c ≠ '"' := by
  rw [headProblems, List.append_eq_nil_iff, problemIf_eq_nil_iff]
  refine and_congr (by simp) ?_
  by_cases hempty : definition.schemaName = ""
  · simp [hempty]
  · simp [hempty]

/-- **A definition without faults is a valid one**, and the other way round. -/
theorem problems_eq_nil_iff : definition.problems = [] ↔ definition.IsValid := by
  simp only [problems, List.append_eq_nil_iff, headProblems_eq_nil_iff,
    relationshipProblems_eq_nil_iff, List.flatMap_eq_nil_iff]
  constructor
  · rintro ⟨⟨⟨hversion, hne, hplain⟩, hnames, -, hrs⟩, hsets⟩
    exact ⟨hversion, hne, hplain, hnames, hrs, fun entry hentry =>
      (definition.setProblems_eq_nil_iff entry.1 entry.2).1 (hsets entry hentry)⟩
  · rintro ⟨hversion, hne, hplain, hnames, hrs, hsets⟩
    exact ⟨⟨⟨hversion, hne, hplain⟩, hnames, by simp, hrs⟩, fun entry hentry =>
      (definition.setProblems_eq_nil_iff entry.1 entry.2).2 (hsets entry hentry)⟩

end Definition

end OData
