/-
The metadata document tells the schema.

A description of a schema lists what the document is about: the namespace, the entity sets with the
targets of their relationships, and for every entity type its key, its properties and its navigation
properties.  It is computed from a registry without any text, and it is read from a document by
looking into the elements.  Both agree for every registry, whatever its names are, so that
registries with the same document have the same schema.

Main definitions:

* `Metadata.Description` — what a document tells, with `Metadata.SetDescription`,
  `Metadata.TypeDescription` and `Metadata.Member`;
* `Registry.description` — the description of a registry;
* `Metadata.Description.ofXml` — the description that is read from the element of a document.

Main results:

* `Metadata.targetOf?_navigationType` — the type of a navigation property tells its target and
  whether it leads to one record or to many;
* `Metadata.isNamed_root` — every document can be read;
* `Metadata.description_document` — **the document of a registry tells its schema**.
-/

import Mathlib.Data.List.Basic
import Mathlib.Data.Option.Basic
import OData.Metadata.Document
import OData.Proofs.Metadata.Reader

set_option relaxedAutoImplicit false
set_option autoImplicit false

namespace OData

/-! ### Looking into elements -/

namespace Xml

/-- The name of an element. -/
def name : Xml → String
  | leaf name _ => name
  | node name _ _ => name

/-- The elements inside an element. -/
def children : Xml → List Xml
  | leaf _ _ => []
  | node _ _ children => children

/-- The value of an attribute. -/
def attribute? (key : String) : Xml → Option String
  | leaf _ attributes => attributes.lookup key
  | node _ attributes _ => attributes.lookup key

/-- The number that a text of digits writes. -/
def readNumber? (text : String) : Option Nat :=
  if !text.toList.isEmpty && text.toList.all Char.isDigit then
    some (Nat.ofDigitChars 10 text.toList 0)
  else none

/-- The number that an attribute writes, if it is there. -/
def number? (key : String) (element : Xml) : Option (Option Nat) :=
  match element.attribute? key with
  | none => some none
  | some text => (readNumber? text).map some

/-- The first element of some name inside an element. -/
def child? (name : String) (element : Xml) : Option Xml :=
  element.children.find? fun child => child.name == name

end Xml

namespace Metadata

/-! ### Descriptions -/

/-- What a document tells about an entity set: its name, and its relationships with their
targets. -/
structure SetDescription where
  name : String
  bindings : List (String × String)
deriving DecidableEq

/-- What a document tells about a plain field. -/
structure PropertyDescription where
  name : String
  type : String
  nullable : Bool
  maxLength : Option Nat
  precision : Option Nat
  scale : Option Nat
deriving DecidableEq

/-- What a document tells about a navigation field.  A constraint names a property and the property
that it refers to. -/
structure NavigationDescription where
  name : String
  target : String
  cardinality : Cardinality
  partner : Option String
  constraint : Option (String × String)
deriving DecidableEq

/-- What a document tells about a field. -/
inductive Member where
  | property (property : PropertyDescription)
  | navigation (navigation : NavigationDescription)
deriving DecidableEq

/-- What a document tells about an entity type. -/
structure TypeDescription where
  name : String
  key : List String
  members : List Member
deriving DecidableEq

/-- What a document tells about a schema. -/
structure Description where
  schemaName : String
  sets : List SetDescription
  types : List TypeDescription
deriving DecidableEq

/-- The description of a set. -/
def setDescription (registry : Registry) (type : EntityType) : SetDescription where
  name := type.name
  bindings := (registry.relationshipsOf type.name).map fun (name, relationship) =>
    (name, relationship.target)

/-- The description of a plain field. -/
def propertyDescription (field : Field) (kind : ScalarKind) : PropertyDescription where
  name := field.wireName
  type := "Edm." ++ kind.edmName
  nullable := !(field.isKey || field.notNull)
  maxLength := field.maxLength
  precision := field.precision
  scale := field.scale

/-- The description of a navigation field that stands for a registered relationship. -/
def navigationDescription (registry : Registry) (type : EntityType) (field : Field) (name : String)
    (relationship : Relationship) : NavigationDescription where
  name := field.wireName
  target := relationship.target
  cardinality := relationship.cardinality
  partner := partner? registry type.name relationship.target
  constraint := (type.find? (name ++ "_ID")).map fun foreignKey =>
    (foreignKey.wireName, referencedName registry relationship.target)

/-- The description of a field; a navigation field without a registered relationship has none. -/
def member? (registry : Registry) (type : EntityType) (field : Field) : Option Member :=
  match field.type with
  | .scalar kind => some (.property (propertyDescription field kind))
  | .navigation =>
    let name := field.relationship?.getD field.name
    (registry.relationship? type.name name).map fun relationship =>
      .navigation (navigationDescription registry type field name relationship)

/-- The description of an entity type. -/
def typeDescription (registry : Registry) (type : EntityType) : TypeDescription where
  name := type.name
  key := type.keyFields.map (·.wireName)
  members := type.fields.filterMap (member? registry type)

end Metadata

/-- The description of the schema of a registry. -/
def Registry.description (registry : Registry) : Metadata.Description where
  schemaName := registry.schemaName
  sets := registry.types.map (Metadata.setDescription registry)
  types := registry.types.map (Metadata.typeDescription registry)

namespace Metadata

/-! ### Reading descriptions -/

/-- The relationship and the target of a binding. -/
def bindingOfXml (element : Xml) : Option (String × String) := do
  guard (element.name = "NavigationPropertyBinding")
  pure (← element.attribute? "Path", ← element.attribute? "Target")

/-- What the element of an entity set tells. -/
def SetDescription.ofXml (element : Xml) : Option SetDescription := do
  guard (element.name = "EntitySet")
  pure ⟨← element.attribute? "Name", ← element.children.mapM bindingOfXml⟩

/-- Whether a property may be null: it may, unless its element says otherwise. -/
def nullableOfXml (element : Xml) : Option Bool :=
  match element.attribute? "Nullable" with
  | none => some true
  | some "true" => some true
  | some "false" => some false
  | some _ => none

/-- What the element of a property tells. -/
def PropertyDescription.ofXml (element : Xml) : Option PropertyDescription := do
  guard (element.name = "Property")
  pure
    { name := ← element.attribute? "Name"
      type := ← element.attribute? "Type"
      nullable := ← nullableOfXml element
      maxLength := ← element.number? "MaxLength"
      precision := ← element.number? "Precision"
      scale := ← element.number? "Scale" }

/-- The target of a navigation property and whether it leads to one record or to many, as its type
tells them. -/
def targetOf? (schemaName text : String) : Option (String × Cardinality) :=
  let front := schemaName.toList ++ ['.']
  match text.toList.dropPrefix? front with
  | some target => some (String.ofList target, .oneToOne)
  | none => do
    let rest ← text.toList.dropPrefix? ("Collection(".toList ++ front)
    let target ← rest.dropSuffix? [')']
    pure (String.ofList target, .oneToMany)

/-- The property of a constraint and the one that it refers to. -/
def constraintOfXml (element : Xml) : Option (String × String) := do
  guard (element.name = "ReferentialConstraint")
  pure (← element.attribute? "Property", ← element.attribute? "ReferencedProperty")

/-- What the element of a navigation property tells. -/
def NavigationDescription.ofXml (schemaName : String) (element : Xml) :
    Option NavigationDescription := do
  guard (element.name = "NavigationProperty")
  let (target, cardinality) ← targetOf? schemaName (← element.attribute? "Type")
  let constraints ← element.children.mapM constraintOfXml
  pure
    { name := ← element.attribute? "Name"
      target
      cardinality
      partner := element.attribute? "Partner"
      constraint := constraints.head? }

/-- What the element of a field tells. -/
def Member.ofXml (schemaName : String) (element : Xml) : Option Member :=
  if element.name = "Property" then (PropertyDescription.ofXml element).map .property
  else (NavigationDescription.ofXml schemaName element).map .navigation

/-- The names in the element of a key. -/
def keyOfXml (element : Xml) : Option (List String) := do
  guard (element.name = "Key")
  element.children.mapM fun reference => do
    guard (reference.name = "PropertyRef")
    reference.attribute? "Name"

/-- What the element of an entity type tells. -/
def TypeDescription.ofXml (schemaName : String) (element : Xml) : Option TypeDescription := do
  guard (element.name = "EntityType")
  match element.children with
  | [] => none
  | key :: fields =>
    pure
      { name := ← element.attribute? "Name"
        key := ← keyOfXml key
        members := ← fields.mapM (Member.ofXml schemaName) }

/-- What the element of a document tells. -/
def Description.ofXml (element : Xml) : Option Description := do
  guard (element.name = "edmx:Edmx")
  let services ← element.child? "edmx:DataServices"
  let schema ← services.child? "Schema"
  let schemaName ← schema.attribute? "Namespace"
  match schema.children with
  | [] => none
  | container :: types =>
    guard (container.name = "EntityContainer")
    pure
      { schemaName
        sets := ← container.children.mapM SetDescription.ofXml
        types := ← types.mapM (TypeDescription.ofXml schemaName) }

/-! ### The type of a navigation property -/

/-- A word without dots in front of a namespace is never taken for a part of the namespace. -/
theorem not_isPrefix_append {word : List Char} (hword : word ≠ []) (hdot : '.' ∉ word)
    (schemaName rest : List Char) :
    ¬ schemaName ++ ['.'] <+: word ++ (schemaName ++ '.' :: rest) := by
  intro h
  have hname : schemaName <+: word ++ (schemaName ++ '.' :: rest) :=
    (List.prefix_append _ _).trans h
  rcases Nat.lt_or_ge schemaName.length word.length with hlt | hge
  · -- the dot behind the namespace would be in the word
    have hlength : (schemaName ++ ['.']).length ≤ word.length := by
      simpa [Nat.succ_le_iff] using hlt
    have hfront : schemaName ++ ['.'] <+: word :=
      List.prefix_of_prefix_length_le h (List.prefix_append _ _) hlength
    exact hdot (hfront.subset (by simp))
  · -- the namespace would begin with the word, and the rest of it would be a smaller such case
    obtain ⟨shorter, heq⟩ := List.prefix_of_prefix_length_le (List.prefix_append word _) hname hge
    have hlength : shorter.length < schemaName.length := by
      have hpos : 0 < word.length := List.length_pos_iff.2 hword
      rw [← heq, List.length_append]
      omega
    have hshorter : shorter ++ ['.'] <+: word ++ (shorter ++ '.' :: rest) := by
      simpa [← heq] using h
    exact not_isPrefix_append hword hdot shorter rest hshorter
termination_by schemaName.length

theorem dropPrefix?_append (front rest : List Char) :
    (front ++ rest).dropPrefix? front = some rest :=
  List.dropPrefix?_eq_some_iff.2 ⟨front, rfl, by simp⟩

theorem dropPrefix?_eq_none {front text : List Char} (h : ¬ front <+: text) :
    text.dropPrefix? front = none := by
  refine Option.eq_none_iff_forall_ne_some.2 fun rest hrest => ?_
  obtain ⟨front', rfl, hfront⟩ := List.dropPrefix?_eq_some_iff.1 hrest
  obtain rfl : front' = front := by simpa using hfront
  exact h (List.prefix_append _ _)

/-- The type of a navigation property tells its target and whether it leads to one or to many, even
if names hold dots and parentheses. -/
theorem targetOf?_navigationType (registry : Registry) (relationship : Relationship) :
    targetOf? registry.schemaName (navigationType registry relationship)
      = some (relationship.target, relationship.cardinality) := by
  obtain ⟨target, cardinality⟩ := relationship
  cases cardinality with
  | oneToOne =>
      have htext : (navigationType registry ⟨target, .oneToOne⟩).toList
          = (registry.schemaName.toList ++ ['.']) ++ target.toList := by
        simp [navigationType]
      simp only [targetOf?, htext, dropPrefix?_append, String.ofList_toList]
  | oneToMany =>
      have htext : (navigationType registry ⟨target, .oneToMany⟩).toList
          = "Collection(".toList
            ++ (registry.schemaName.toList ++ '.' :: (target.toList ++ [')'])) := by
        simp [navigationType]
      have hmany : (navigationType registry ⟨target, .oneToMany⟩).toList
          = ("Collection(".toList ++ (registry.schemaName.toList ++ ['.']))
            ++ (target.toList ++ [')']) := by
        simp [navigationType]
      have hone : (navigationType registry ⟨target, .oneToMany⟩).toList.dropPrefix?
          (registry.schemaName.toList ++ ['.']) = none := by
        rw [htext]
        exact dropPrefix?_eq_none (not_isPrefix_append (by decide) (by decide) _ _)
      have hclose : (target.toList ++ [')']).dropSuffix? [')'] = some target.toList :=
        List.dropSuffix?_eq_some_iff.2 ⟨[')'], rfl, by simp⟩
      simp only [targetOf?, hone]
      rw [hmany, dropPrefix?_append]
      simp [hclose]

/-! ### Reading the elements of a registry -/

theorem readNumber?_toString (n : Nat) : Xml.readNumber? (toString n) = some n := by
  have hdigits : (Nat.toDigits 10 n).all Char.isDigit = true :=
    List.all_eq_true.2 fun c hc => Nat.isDigit_of_mem_toDigits (by decide) (by decide) hc
  simp [Xml.readNumber?, hdigits, Nat.toDigits_ne_nil, Nat.ofDigitChars_ten_toDigits]

theorem number?_eq {element : Xml} {key : String} {n : Option Nat}
    (h : element.attribute? key = n.map toString) : element.number? key = some n := by
  rw [Xml.number?, h]
  cases n with
  | none => rfl
  | some n => simp only [Option.map_some, readNumber?_toString]

/-- An optional number is found under its own name only. -/
theorem lookup_optionalNumber (key name : String) (n : Option Nat) :
    (optionalNumber name n).lookup key = if key = name then n.map toString else none := by
  cases n with
  | none => simp [optionalNumber]
  | some n =>
      by_cases h : key = name
      · simp [optionalNumber, h]
      · have hkey : (key == name) = false := by simpa using h
        simp [optionalNumber, List.lookup_cons, h, hkey]

/-- The attributes of a property. -/
def propertyAttributes (field : Field) (kind : ScalarKind) : List (String × String) :=
  [("Name", field.wireName), ("Type", "Edm." ++ kind.edmName)] ++
    (if field.isKey || field.notNull then [("Nullable", "false")] else []) ++
    optionalNumber "MaxLength" field.maxLength ++ optionalNumber "Precision" field.precision ++
    optionalNumber "Scale" field.scale

theorem value_propertyElement (type : EntityType) (field : Field) (kind : ScalarKind) :
    (propertyElement type field kind).value = .leaf "Property" (propertyAttributes field kind) := by
  cases kind <;> rfl

theorem lookup_propertyAttributes (field : Field) (kind : ScalarKind) :
    let attributes := propertyAttributes field kind
    attributes.lookup "Name" = some field.wireName ∧
      attributes.lookup "Type" = some ("Edm." ++ kind.edmName) ∧
      attributes.lookup "Nullable"
        = (if field.isKey || field.notNull then some "false" else none) ∧
      attributes.lookup "MaxLength" = field.maxLength.map toString ∧
      attributes.lookup "Precision" = field.precision.map toString ∧
      attributes.lookup "Scale" = field.scale.map toString := by
  simp only [propertyAttributes, List.lookup_append, lookup_optionalNumber]
  cases field.isKey || field.notNull <;> simp [List.lookup_cons]

theorem ofXml_propertyElement (type : EntityType) (field : Field) (kind : ScalarKind) :
    PropertyDescription.ofXml (propertyElement type field kind).value
      = some (propertyDescription field kind) := by
  rw [value_propertyElement]
  obtain ⟨hname, htype, hnullable, hmax, hprecision, hscale⟩ := lookup_propertyAttributes field kind
  generalize propertyAttributes field kind = attributes at *
  have hnull : nullableOfXml (.leaf "Property" attributes)
      = some (!(field.isKey || field.notNull)) := by
    rw [nullableOfXml, Xml.attribute?, hnullable]
    cases field.isKey || field.notNull <;> rfl
  have hnumbers : ∀ {key n}, attributes.lookup key = n.map toString →
      Xml.number? key (.leaf "Property" attributes) = some n := fun h => number?_eq h
  simp [PropertyDescription.ofXml, Xml.name, Xml.attribute?, hname, htype, hnull, hnumbers hmax,
    hnumbers hprecision, hnumbers hscale, propertyDescription]

theorem ofXml_navigationElement (registry : Registry) (type : EntityType) (field : Field)
    (name : String) (relationship : Relationship) :
    NavigationDescription.ofXml registry.schemaName
        (navigationElement registry type field name relationship)
      = some (navigationDescription registry type field name relationship) := by
  have htype := targetOf?_navigationType registry relationship
  rw [navigationElement, navigationDescription]
  cases partner? registry type.name relationship.target <;> cases type.find? (name ++ "_ID") <;>
    simp [NavigationDescription.ofXml, Xml.name, Xml.attribute?, Xml.children, constraintOfXml,
      List.lookup_cons, htype]

/-- A field is read from its element, if it has one. -/
theorem mapM_fieldElements (registry : Registry) (type : EntityType) (field : Field) :
    (fieldElements registry type field).value.mapM (Member.ofXml registry.schemaName)
      = some (member? registry type field).toList := by
  rw [fieldElements, member?]
  cases hfield : field.type with
  | scalar kind =>
      have hread := ofXml_propertyElement type field kind
      have hname : (propertyElement type field kind).value.name = "Property" := by
        rw [value_propertyElement]
        rfl
      simp [Member.ofXml, hname, hread]
  | navigation =>
      simp only
      cases registry.relationship? type.name (field.relationship?.getD field.name) with
      | none => rfl
      | some relationship =>
          have hread := ofXml_navigationElement registry type field
            (field.relationship?.getD field.name) relationship
          have hname : (navigationElement registry type field
              (field.relationship?.getD field.name) relationship).name = "NavigationProperty" := by
            rw [navigationElement]
            cases type.find? (field.relationship?.getD field.name ++ "_ID") <;> rfl
          simp [Member.ofXml, hname, hread]

theorem mapM_eq_some_of_forall {α β : Type} {f : α → Option β} {g : α → β} {items : List α}
    (h : ∀ a ∈ items, f a = some (g a)) : items.mapM f = some (items.map g) := by
  induction items with
  | nil => rfl
  | cons a items ih =>
      rw [List.mapM_cons, h a List.mem_cons_self, ih fun b hb => h b (List.mem_cons_of_mem _ hb)]
      rfl

theorem mapM_map_of_forall {α β γ : Type} {f : β → Option γ} {g : α → γ} {element : α → β}
    {items : List α} (h : ∀ a, f (element a) = some (g a)) :
    (items.map element).mapM f = some (items.map g) := by
  rw [List.mapM_map]
  exact mapM_eq_some_of_forall fun a _ => h a

/-- All fields are read from the elements of all fields. -/
theorem mapM_fields (registry : Registry) (type : EntityType) (fields : List Field) :
    (fields.map fun field => (fieldElements registry type field).value).flatten.mapM
        (Member.ofXml registry.schemaName)
      = some (fields.filterMap (member? registry type)) := by
  induction fields with
  | nil => rfl
  | cons field fields ih =>
      rw [List.map_cons, List.flatten_cons, List.mapM_append, mapM_fieldElements, ih]
      cases hmember : member? registry type field with
      | none => rw [List.filterMap_cons_none hmember]; rfl
      | some member => rw [List.filterMap_cons_some hmember]; rfl

theorem ofXml_typeElement (registry : Registry) (type : EntityType) :
    TypeDescription.ofXml registry.schemaName (typeElement registry type).value
      = some (typeDescription registry type) := by
  have hkey : keyOfXml (keyElement type) = some (type.keyFields.map (·.wireName)) := by
    rw [keyOfXml, keyElement]
    exact mapM_map_of_forall fun field => rfl
  have hfields := mapM_fields registry type type.fields
  simp only [typeElement, Journal.value_bind, Journal.value_pure, Journal.value_traverse]
  generalize (type.fields.map fun field => (fieldElements registry type field).value).flatten
    = elements at hfields ⊢
  simp [TypeDescription.ofXml, Xml.name, Xml.children, Xml.attribute?, hkey, hfields,
    typeDescription]

theorem ofXml_setElement (registry : Registry) (type : EntityType) :
    SetDescription.ofXml (setElement registry type) = some (setDescription registry type) := by
  have hbindings : (bindingElements (registry.relationshipsOf type.name)).mapM bindingOfXml
      = some (setDescription registry type).bindings := mapM_map_of_forall fun binding => rfl
  rw [setElement]
  cases hrelationships : registry.relationshipsOf type.name with
  | nil =>
      simp [SetDescription.ofXml, Xml.name, Xml.children, Xml.attribute?, setDescription,
        hrelationships]
  | cons first rest =>
      rw [hrelationships] at hbindings
      simp [SetDescription.ofXml, Xml.name, Xml.children, Xml.attribute?, hbindings]
      rfl

theorem ofXml_root (registry : Registry) :
    Description.ofXml (root (schema registry).value) = some registry.description := by
  have hsets : (registry.types.map (setElement registry)).mapM SetDescription.ofXml
      = some (registry.types.map (setDescription registry)) :=
    mapM_map_of_forall (ofXml_setElement registry)
  have htypes : (registry.types.map fun type => (typeElement registry type).value).mapM
        (TypeDescription.ofXml registry.schemaName)
      = some (registry.types.map (typeDescription registry)) :=
    mapM_map_of_forall (ofXml_typeElement registry)
  simp only [schema, Journal.value_bind, Journal.value_pure, Journal.value_traverse]
  generalize (registry.types.map fun type => (typeElement registry type).value) = types at htypes ⊢
  simp [Description.ofXml, root, vocabularies, vocabularyElement, Xml.child?, Xml.children,
    Xml.name, Xml.attribute?, List.lookup_cons, hsets, htypes, Registry.description]

/-! ### Every document can be read -/

section

open Xml (IsName IsNamed)

theorem isNamed_bindingElements (relationships : Ordered Relationship) :
    ∀ element ∈ bindingElements relationships, IsNamed element := by
  intro element helement
  obtain ⟨binding, -, rfl⟩ := List.mem_map.1 helement
  exact .leaf (by decide) (by simp; decide)

theorem isNamed_setElement (registry : Registry) (type : EntityType) :
    IsNamed (setElement registry type) := by
  have hattributes : ∀ a ∈
      [("Name", type.name), ("EntityType", registry.schemaName ++ "." ++ type.name)],
      IsName a.1 := by
    simp
    decide
  rw [setElement]
  split
  · exact .leaf (by decide) hattributes
  · exact .node (by decide) hattributes (isNamed_bindingElements _)

theorem isName_optionalNumber {name : String} (h : IsName name) (n : Option Nat) :
    ∀ a ∈ optionalNumber name n, IsName a.1 := by
  cases n with
  | none => simp [optionalNumber]
  | some n => simpa [optionalNumber] using h

theorem isNamed_propertyElement (type : EntityType) (field : Field) (kind : ScalarKind) :
    IsNamed (propertyElement type field kind).value := by
  rw [value_propertyElement, propertyAttributes]
  refine .leaf (by decide) fun a ha => ?_
  simp only [List.mem_append] at ha
  rcases ha with (((ha | ha) | ha) | ha) | ha
  · have hnames : IsName "Name" ∧ IsName "Type" := by decide
    simp only [List.mem_cons, List.not_mem_nil, or_false] at ha
    rcases ha with rfl | rfl
    · exact hnames.1
    · exact hnames.2
  · split at ha
    · rw [List.mem_singleton.1 ha]
      decide
    · cases ha
  · exact isName_optionalNumber (by decide) _ a ha
  · exact isName_optionalNumber (by decide) _ a ha
  · exact isName_optionalNumber (by decide) _ a ha

theorem isNamed_navigationElement (registry : Registry) (type : EntityType) (field : Field)
    (name : String) (relationship : Relationship) :
    IsNamed (navigationElement registry type field name relationship) := by
  rw [navigationElement]
  cases partner? registry type.name relationship.target <;> cases type.find? (name ++ "_ID")
  case none.none | some.none => exact .leaf (by decide) (by simp; decide)
  case none.some | some.some =>
    refine .node (by decide) (by simp; decide) fun element helement => ?_
    rw [List.mem_singleton.1 helement]
    exact .leaf (by decide) (by simp; decide)

theorem isNamed_fieldElements (registry : Registry) (type : EntityType) (field : Field) :
    ∀ element ∈ (fieldElements registry type field).value, IsNamed element := by
  intro element helement
  rw [fieldElements] at helement
  cases hfield : field.type with
  | scalar kind =>
      rw [hfield] at helement
      obtain rfl := List.mem_singleton.1 helement
      exact isNamed_propertyElement type field kind
  | navigation =>
      simp only [hfield] at helement
      cases hname : registry.relationship? type.name (field.relationship?.getD field.name) with
      | none =>
          rw [hname] at helement
          cases helement
      | some relationship =>
          rw [hname] at helement
          obtain rfl := List.mem_singleton.1 helement
          exact isNamed_navigationElement registry type field _ relationship

theorem isNamed_keyElement (type : EntityType) : IsNamed (keyElement type) := by
  refine .node (by decide) (by simp) fun element helement => ?_
  obtain ⟨field, -, rfl⟩ := List.mem_map.1 helement
  exact .leaf (by decide) (by simp; decide)

theorem isNamed_typeElement (registry : Registry) (type : EntityType) :
    IsNamed (typeElement registry type).value := by
  simp only [typeElement, Journal.value_bind, Journal.value_pure, Journal.value_traverse]
  refine .node (by decide) (by simp; decide) fun element helement => ?_
  rcases List.mem_cons.1 helement with rfl | helement
  · exact isNamed_keyElement type
  · obtain ⟨elements, helements, hmem⟩ := List.mem_flatten.1 helement
    obtain ⟨field, -, rfl⟩ := List.mem_map.1 helements
    exact isNamed_fieldElements registry type field element hmem

theorem isNamed_schema (registry : Registry) : IsNamed (schema registry).value := by
  simp only [schema, Journal.value_bind, Journal.value_pure, Journal.value_traverse]
  refine .node (by decide) (by simp; decide) fun element helement => ?_
  rcases List.mem_cons.1 helement with rfl | helement
  · refine .node (by decide) (by simp; decide) fun element helement => ?_
    obtain ⟨type, -, rfl⟩ := List.mem_map.1 helement
    exact isNamed_setElement registry type
  · obtain ⟨type, -, rfl⟩ := List.mem_map.1 helement
    exact isNamed_typeElement registry type

theorem isNamed_vocabularyElement (uri short schemaName : String) :
    IsNamed (vocabularyElement uri short schemaName) := by
  refine .node (by decide) (by simp; decide) fun element helement => ?_
  rw [List.mem_singleton.1 helement]
  exact .leaf (by decide) (by simp; decide)

/-- Whatever names a registry has, its document is made of names that can be read. -/
theorem isNamed_root {schema : Xml} (h : IsNamed schema) : IsNamed (root schema) := by
  refine .node (by decide) (by simp; decide) fun element helement => ?_
  rcases List.mem_append.1 helement with helement | helement
  · simp only [vocabularies, List.mem_cons, List.not_mem_nil, or_false] at helement
    rcases helement with rfl | rfl <;> exact isNamed_vocabularyElement _ _ _
  · rw [List.mem_singleton.1 helement]
    exact .node (by decide) (by simp) (by simpa using h)

end

theorem read_xml_document (registry : Registry) :
    Xml.read (document registry).value.xml = some (root (schema registry).value) :=
  Xml.read_document (isNamed_root (isNamed_schema registry))

/-- **The document of a registry tells its schema.**  Every tag is closed where it should be, the
element that is read describes the schema of the registry, and registries with the same document
have the same schema. -/
theorem description_document (registry : Registry) :
    Xml.read (document registry).value.xml = some (root (schema registry).value) ∧
      Description.ofXml (root (schema registry).value) = some registry.description ∧
      ∀ other : Registry, (document other).value.xml = (document registry).value.xml →
        other.description = registry.description := by
  refine ⟨read_xml_document registry, ofXml_root registry, fun other hsame => ?_⟩
  have hroot : root (schema other).value = root (schema registry).value := by
    rw [← Option.some_inj, ← read_xml_document other, ← read_xml_document registry, hsame]
  have hdescription := ofXml_root other
  rw [hroot, ofXml_root registry] at hdescription
  exact (Option.some.inj hdescription).symm

/-- A type whose names are full of what could be mistaken for a part of the document. -/
def oddType : EntityType where
  name := "Collection(a.b)"
  fields :=
    [{ name := "\"/>", type := .scalar .decimal, isKey := true, precision := some 9,
        scale := some 0 },
      .navigation "&lt;", .navigation "nowhere"]

/-- A schema with such a type, whose records lead to others of their kind. -/
def oddRegistry (handler : Handler) : Registry :=
  .ofRegistrations "Collection(a."
    [.set oddType handler, .relationship oddType.name "&lt;" ⟨oddType.name, .oneToMany⟩]

theorem description_document_odd :
    let property : PropertyDescription := ⟨"\"/>", "Edm.Decimal", false, none, some 9, some 0⟩
    let navigation : NavigationDescription :=
      ⟨"&lt;", "Collection(a.b)", .oneToMany, some "&lt;", none⟩
    let description : Description :=
      ⟨"Collection(a.", [⟨"Collection(a.b)", [("&lt;", "Collection(a.b)")]⟩],
        [⟨"Collection(a.b)", ["\"/>"], [.property property, .navigation navigation]⟩]⟩
    (Xml.read (document (oddRegistry {})).value.xml).bind Description.ofXml = some description ∧
      (oddRegistry { collection := some [] }).description = (oddRegistry {}).description := by
  obtain ⟨hread, htells, hsame⟩ := description_document (oddRegistry {})
  refine ⟨?_, hsame _ ?_⟩
  · rw [hread, Option.bind_some, htells]
    rfl
  · rfl

end Metadata

end OData
