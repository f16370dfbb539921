/-
Checking service definitions.

A definition is valid if its version and namespace are right, its relationships connect declared
sets by declared fields, its sets have keys, and its records hold plain values of declared fields.
Every fault is listed, relationships before entity sets, each in the order of declaration.

* `Definition.Problem`, `Problem.message` — the faults and their texts;
* `Definition.relationshipProblems`, `Definition.setProblems` — the faults of the two parts;
* `Definition.problems` — all faults of a definition.
-/

import OData.Definition.Basic

set_option relaxedAutoImplicit false
set_option autoImplicit false

namespace OData.Definition

/-- A fault of a definition. -/
inductive Problem where
  | wrongVersion (version : String)
  | emptyNamespace
  | badNamespace (schemaName : String)
  /-- A relationship starts from a set that is not declared. -/
  | unknownSource (source name : String)
  /-- A relationship leads to a set that is not declared. -/
  | unknownTarget (source name target : String)
  | repeatedRelationship (source name : String)
  /-- The foreign key of a relationship is no plain field of the set that should have it. -/
  | missingForeignKey (source name key owner : String)
  /-- A relationship to many has neither a foreign key nor a partner to name one after. -/
  | noInverse (source name target : String)
  | noFields (set : String)
  | repeatedField (set field : String)
  /-- A field is bound to a relationship that its set does not have. -/
  | unknownRelationship (set field relationship : String)
  | navigationKey (set field : String)
  | noKey (set : String)
  /-- A record holds a field that is not declared. -/
  | unknownMember (set : String) (index : Nat) (field : String)
  /-- A record holds a value for a navigation field. -/
  | navigationMember (set : String) (index : Nat) (field : String)
  /-- A record holds an array or an object. -/
  | containerMember (set : String) (index : Nat) (field : String)
deriving DecidableEq

/-- The text of a fault. -/
def Problem.message : Problem → String
  | wrongVersion version => "version must be \"1.0\", got \"" ++ version ++ "\""
  | emptyNamespace => "namespace must not be empty"
  | badNamespace schemaName => "namespace '" ++ schemaName ++ "' is not a valid identifier"
  | unknownSource source name =>
    "relationship '" ++ source ++ "." ++ name ++ "' is declared on unknown entity set '" ++
      source ++ "'"
  | unknownTarget source name target =>
    "relationship '" ++ source ++ "." ++ name ++ "' targets unknown entity set '" ++ target ++ "'"
  | repeatedRelationship source name =>
    "relationship '" ++ source ++ "." ++ name ++ "' is declared twice"
  | missingForeignKey source name key owner =>
    "relationship '" ++ source ++ "." ++ name ++ "': foreign key '" ++ key ++
      "' is not a field of '" ++ owner ++ "'"
  | noInverse source name target =>
    "relationship '" ++ source ++ "." ++ name ++ "' has no inverse on '" ++ target ++
      "'; set foreign_key"
  | noFields set => "entity set '" ++ set ++ "' has no fields"
  | repeatedField set field => "entity set '" ++ set ++ "' declares field '" ++ field ++ "' twice"
  | unknownRelationship set field relationship =>
    "field '" ++ set ++ "." ++ field ++ "' expands unknown relationship '" ++ relationship ++ "'"
  | navigationKey set field => "key field '" ++ set ++ "." ++ field ++ "' cannot be a navigation"
  | noKey set => "entity set '" ++ set ++ "' declares no key field"
  | unknownMember set index field =>
    "entity set '" ++ set ++ "' record " ++ toString index ++ " has unknown field '" ++ field ++ "'"
  | navigationMember set index field =>
    "entity set '" ++ set ++ "' record " ++ toString index ++ " sets navigation field '" ++ field ++
      "'"
  | containerMember set index field =>
    "entity set '" ++ set ++ "' record " ++ toString index ++ " field '" ++ field ++
      "' is not a scalar"

/-- A problem, if a condition holds. -/
def problemIf (condition : Bool) (problem : Problem) : List Problem :=
  if condition then [problem] else []

/-! ### Version and namespace -/

/-- The faults of the version and the namespace. -/
def headProblems (definition : Definition) : List Problem :=
  problemIf (definition.version != "1.0") (.wrongVersion definition.version) ++
    if definition.schemaName.isEmpty then [.emptyNamespace]
    else problemIf (definition.schemaName.toList.any fun c => Text.isBlank c || c == '"')
      (.badNamespace definition.schemaName)

/-! ### Relationships -/

/-- The faults of a relationship's foreign key, if both of its sets are declared. -/
def foreignKeyProblems (definition : Definition) (r : RelationshipDefinition) : List Problem :=
  match definition.set? r.source, definition.set? r.target with
  | some source, some target =>
    match definition.foreignKey? r with
    | none => [.noInverse r.source r.name r.target]
    | some key =>
      match r.cardinality with
      | .oneToOne => problemIf (!source.hasPlainField key)
          (.missingForeignKey r.source r.name key r.source)
      | .oneToMany => problemIf (!target.hasPlainField key)
          (.missingForeignKey r.source r.name key r.target)
  | _, _ => []

/-- The faults of some relationships, given the sources and names of those before them. -/
def relationshipProblems (definition : Definition) :
    List (String × String) → List RelationshipDefinition → List Problem
  | _, [] => []
  | seen, r :: rest =>
    problemIf (definition.set? r.source).isNone (.unknownSource r.source r.name) ++
      problemIf (definition.set? r.target).isNone (.unknownTarget r.source r.name r.target) ++
      problemIf (seen.contains (r.source, r.name)) (.repeatedRelationship r.source r.name) ++
      foreignKeyProblems definition r ++
      relationshipProblems definition ((r.source, r.name) :: seen) rest

/-! ### Entity sets -/

/-- Whether a relationship is declared from a set. -/
def hasRelationship (definition : Definition) (set relationship : String) : Bool :=
  definition.relationships.any fun r => r.source == set && r.name == relationship

/-- The faults of some fields of a set, given the names of those before them. -/
def fieldProblems (definition : Definition) (set : String) :
    List String → List FieldDefinition → List Problem
  | _, [] => []
  | seen, field :: rest =>
    problemIf (seen.contains field.name) (.repeatedField set field.name) ++
      (match field.relationship? with
        | none => []
        | some relationship => problemIf (!definition.hasRelationship set relationship)
            (.unknownRelationship set field.name relationship)) ++
      problemIf (field.isKey && field.isNavigation) (.navigationKey set field.name) ++
      fieldProblems definition set (field.name :: seen) rest

/-- The fault of one member of a record. -/
def memberProblems (name : String) (set : SetDefinition) (index : Nat) (member : String × Json) :
    List Problem :=
  match set.fields.find? (·.name == member.1) with
  | none => [.unknownMember name index member.1]
  | some field =>
    if field.isNavigation then [.navigationMember name index member.1]
    else problemIf member.2.isContainer (.containerMember name index member.1)

/-- The faults of some records of a set, the first of which has the given position. -/
def recordProblems (name : String) (set : SetDefinition) :
    Nat → List (Ordered Json) → List Problem
  | _, [] => []
  | index, record :: rest =>
    record.flatMap (memberProblems name set index) ++ recordProblems name set (index + 1) rest

/-- The faults of an entity set.  A set without fields has no other faults. -/
def setProblems (definition : Definition) (entry : String × SetDefinition) : List Problem :=
  let (name, set) := entry
  if set.fields.isEmpty then [.noFields name]
  else
    fieldProblems definition name [] set.fields ++
      problemIf (!set.fields.any (·.isKey)) (.noKey name) ++ recordProblems name set 0 set.records

/-- All faults of a definition; a valid one has none. -/
def problems (definition : Definition) : List Problem :=
  headProblems definition ++ relationshipProblems definition [] definition.relationships ++
    definition.entitySets.flatMap (setProblems definition)

end OData.Definition
