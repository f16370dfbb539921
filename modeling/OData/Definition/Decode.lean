/-
Definitions from YAML texts.

* `Definition.decoder` — what a document has to hold to be a definition;
* `Definition.TextError` — why a text is none: it is no document that can be loaded, or the document
  says something else;
* `Definition.ofText` — the definition that a text writes.
-/

import OData.Definition.Basic
import OData.Yaml.Decode
import OData.Yaml.Document

set_option relaxedAutoImplicit false
set_option autoImplicit false

namespace OData

open Yaml (Decoder LoadM Mismatch Document)
open Yaml.Decoder (member)

/-! ### Parts of a definition -/

namespace Cardinality

/-- The cardinality that a word names. -/
def ofLabel? (word : String) : Option Cardinality :=
  [oneToOne, oneToMany].find? (·.label == word)

/-- The cardinality that a word at a place names. -/
def ofWord (path : Yaml.Path) (word : String) : LoadM Cardinality :=
  match ofLabel? word with
  | some cardinality => return cardinality
  | none => Decoder.reject path (.unknownWord word oneToOne.label oneToMany.label)

/-- A cardinality: its word, or a node without content that has the word as its tag.  A word in a
tag that names none is amiss in the relationship around it, unless an alias leads to that tag. -/
def decoder : Decoder Cardinality := fun _ path node => do
  let around := if node.isReference then path else path.drop 1
  match ← Yaml.follow node with
  | .scalar tag style text =>
    match Yaml.ownName? tag with
    | none => ofWord path text
    | some word =>
      let cardinality ← ofWord around word
      if style == .plain && (text.isEmpty || Yaml.Plain.isNull text) then return cardinality
      else Decoder.reject path (.value (.string text) "null")
  | .sequence tag _ => ofCollection path around .sequence tag
  | .mapping tag _ => ofCollection path around .mapping tag
  | .reference _ => throw .unloadable
where
  /-- A sequence or a mapping is no cardinality; its tag decides what is wrong with it. -/
  ofCollection (path around : Yaml.Path) (found : Yaml.Found) (tag : Option Yaml.Tag) :
      LoadM Cardinality := do
    match Yaml.ownName? tag with
    | none => Decoder.reject path (.kind found "a YAML tag starting with '!'")
    | some word =>
      let _ ← ofWord around word
      Decoder.reject path (.kind found "unit")

end Cardinality

/-- A field. -/
def FieldDefinition.decoder : Decoder FieldDefinition :=
  Decoder.record "struct FieldDefinition"
    [member "name" Decoder.text fun field name => { field with name },
      member "type" Decoder.text fun field typeWord => { field with typeWord },
      member "key" Decoder.bool fun field isKey => { field with isKey },
      member "not_null" Decoder.bool fun field notNull => { field with notNull },
      member "expand" (Decoder.optional Decoder.text)
        fun field expandOnly => { field with expandOnly },
      member "ref" (Decoder.optional Decoder.text) fun field reference => { field with reference },
      member "display_name" (Decoder.optional Decoder.text)
        fun field displayName => { field with displayName },
      member "max_length" (Decoder.optional Decoder.count)
        fun field maxLength => { field with maxLength },
      member "precision" (Decoder.optional Decoder.count)
        fun field precision => { field with precision },
      member "scale" (Decoder.optional Decoder.count) fun field scale => { field with scale }]
    ["name"] { name := "" }

/-- The capabilities of an entity set. -/
def Capabilities.decoder : Decoder Capabilities :=
  Decoder.record "struct Capabilities"
    [member "collection" Decoder.bool
        fun capabilities collection => { capabilities with collection },
      member "by_id" Decoder.bool fun capabilities byId => { capabilities with byId },
      member "expand" Decoder.bool fun capabilities expand => { capabilities with expand }]
    [] {}

/-- An entity set. -/
def SetDefinition.decoder : Decoder SetDefinition :=
  Decoder.record "struct EntitySetDefinition"
    [member "fields" (Decoder.sequence FieldDefinition.decoder)
        fun set fields => { set with fields },
      member "capabilities" Capabilities.decoder fun set capabilities => { set with capabilities },
      member "records" (Decoder.sequence (Decoder.mapping Decoder.json))
        fun set records => { set with records }]
    ["fields"] { fields := [] }

/-- A relationship. -/
def RelationshipDefinition.decoder : Decoder RelationshipDefinition :=
  Decoder.record "struct RelationshipDefinition"
    [member "from" Decoder.text fun relationship source => { relationship with source },
      member "name" Decoder.text fun relationship name => { relationship with name },
      member "target" Decoder.text fun relationship target => { relationship with target },
      member "cardinality" Cardinality.decoder
        fun relationship cardinality => { relationship with cardinality },
      member "foreign_key" (Decoder.optional Decoder.text)
        fun relationship foreignKey => { relationship with foreignKey }]
    ["from", "name", "target", "cardinality"]
    { source := "", name := "", target := "", cardinality := .oneToOne }

namespace Definition

/-- A definition. -/
def decoder : Decoder Definition :=
  Decoder.record "struct ServiceDefinition"
    [member "version" Decoder.text fun definition version => { definition with version },
      member "namespace" Decoder.text fun definition schemaName => { definition with schemaName },
      member "description" (Decoder.optional Decoder.text)
        fun definition description => { definition with description },
      member "entity_sets" (Decoder.mapping SetDefinition.decoder)
        fun definition entitySets => { definition with entitySets },
      member "relationships" (Decoder.sequence RelationshipDefinition.decoder)
        fun definition relationships => { definition with relationships }]
    ["version"] { version := "" }

/-! ### Whole texts -/

/-- Why a text is no definition. -/
inductive TextError where
  /-- It is no single document that can be loaded. -/
  | malformed
  /-- The document does not write a definition. -/
  | mismatch (path : Yaml.Path) (cause : Mismatch)

/-- The words for why a document does not write a definition. -/
def messageOfMismatch (path : Yaml.Path) (cause : Mismatch) : String :=
  let place := path.text
  "YAML parse error: " ++ (if place = "." then "" else place ++ ": ") ++ cause.message

/-- The definition that a document writes.  A text without a document has no members. -/
def decode (document : Document) : Except Yaml.LoadError Definition :=
  let root := document.root.getD .empty
  (((decoder Yaml.depthLimit [] root).run document).run 0).map Prod.fst

/-- The definition that a document writes; what is wrong with a document that cannot be loaded does
not matter. -/
def ofDocument (document : Document) : Except TextError Definition :=
  match decode document with
  | .ok definition => .ok definition
  | .error .unloadable => .error .malformed
  | .error (.mismatch path cause) =>
    .error (if document.isLoadable then .mismatch path cause else .malformed)

/-- The definition that a text writes. -/
def ofText (text : String) : Except TextError Definition :=
  match Document.ofText text with
  | .ok document => ofDocument document
  | .error _ => .error .malformed

end Definition

end OData
