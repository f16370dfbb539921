/-
The JSON schema of service definitions.

The schema describes the members of a definition, of its entity sets, fields and relationships, with
their defaults.  It is a constant.

* `Definition.Schema` — the pieces that the schema is put together from;
* `Definition.schema` — the schema.
-/

import OData.Definition.Text
import OData.Json.Printer

set_option relaxedAutoImplicit false
set_option autoImplicit false

namespace OData.Definition

namespace Schema

/-! ### Pieces -/

/-- The types that a value may have. -/
def typed (names : List String) : List (String × Json) :=
  [("type",
    match names with
    | [name] => .string name
    | names => .array (names.map .string))]

/-- What a member is for. -/
def described (text : String) : List (String × Json) := [("description", .string text)]

/-- The value of a member that is left out. -/
def defaulted (value : Json) : List (String × Json) := [("default", value)]

/-- A description that stands elsewhere in the schema. -/
def reference (name : String) : List (String × Json) :=
  [("$ref", .string ("#/definitions/" ++ name))]

/-- A text that may be left out. -/
def optionalText : List (String × Json) := defaulted .null ++ typed ["string", "null"]

/-- A count that may be left out. -/
def optionalCount : List (String × Json) :=
  defaulted .null ++ typed ["integer", "null"] ++
    [("format", .string "uint32"), ("minimum", .decimal (.ofInt 0))]

/-- A truth value that may be left out. -/
def defaultedBool (value : Bool) : List (String × Json) :=
  defaulted (.bool value) ++ typed ["boolean"]

/-- A sequence whose items are all described alike. -/
def listOf (item : List (String × Json)) : List (String × Json) :=
  typed ["array"] ++ [("items", .object item)]

/-- An object with some members, of which some are needed. -/
def record (needed : List String) (members : List (String × List (String × Json))) :
    List (String × Json) :=
  typed ["object"] ++
    (if needed.isEmpty then [] else [("required", .array (needed.map .string))]) ++
    [("properties", .object (members.map fun (name, member) => (name, .object member)))]

/-! ### The parts of a definition -/

/-- The capabilities of an entity set. -/
def capabilities : List (String × Json) :=
  described "Request capabilities of an entity set. Disabled fetches answer 501." ++
    record []
      [("by_id", defaultedBool true), ("collection", defaultedBool true),
        ("expand", defaultedBool true)]

/-- The cardinality of a relationship. -/
def cardinality : List (String × Json) :=
  described "Relationship cardinality." ++ typed ["string"] ++
    [("enum", .array ([Cardinality.oneToOne, .oneToMany].map fun c => .string c.label))]

/-- An entity set. -/
def entitySet : List (String × Json) :=
  described "One entity set: its record type, what it can do, and its data." ++
    record ["fields"]
      [("capabilities",
          described "Enabled request capabilities" ++
            defaulted (.object
              [("by_id", .bool true), ("collection", .bool true), ("expand", .bool true)]) ++
            [("allOf", .array [.object (reference "Capabilities")])]),
        ("fields",
          described "Fields in declaration (wire) order" ++ listOf (reference "FieldDefinition")),
        ("records",
          described "Seed records keyed by declared field name" ++ defaulted (.array []) ++
            listOf (typed ["object"] ++ [("additionalProperties", .bool true)]))]

/-- A field. -/
def field : List (String × Json) :=
  described "A declared field." ++
    record ["name"]
      [("display_name", described "Wire name override" ++ optionalText),
        ("expand", described "Emit only when this relationship is expanded" ++ optionalText),
        ("key", defaultedBool false),
        ("max_length", optionalCount),
        ("name", typed ["string"]),
        ("not_null", defaultedBool false),
        ("precision", optionalCount),
        ("ref", described "Entity set a foreign-key field points at" ++ optionalText),
        ("scale", optionalCount),
        ("type",
          described "Scalar kind (`string`, `int32`, `decimal`, `boolean`) or `navigation`" ++
            defaulted (.string "string") ++ typed ["string"])]

/-- A relationship. -/
def relationship : List (String × Json) :=
  described "`from.name` points at `target`." ++
    record ["cardinality", "from", "name", "target"]
      [("cardinality", reference "Cardinality"),
        ("foreign_key",
          described ("Foreign-key field. One-to-one: on `from`, defaults to `<name>_ID`. " ++
            "One-to-many: on `target`, defaults to `<partner>_ID`.") ++ optionalText),
        ("from", typed ["string"]), ("name", typed ["string"]), ("target", typed ["string"])]

/-- The members of a definition. -/
def service : List (String × Json) :=
  record ["version"]
    [("description", described "Optional description" ++ optionalText),
      ("entity_sets",
        described "Entity sets in registration order" ++ defaulted (.object []) ++
          typed ["object"] ++
          [("additionalProperties", .object (reference "EntitySetDefinition"))]),
      ("namespace",
        described "CSDL schema namespace" ++ defaulted (.string "CatalogService") ++
          typed ["string"]),
      ("relationships",
        described "Relationships between entity sets" ++ defaulted (.array []) ++
          listOf (reference "RelationshipDefinition")),
      ("version", described "Schema version (must be \"1.0\")" ++ typed ["string"])]

/-- The dialect that the schema is written in: the name of the seventh draft of JSON Schema, which
stands at the head of every schema in it. -/
def dialect : String := "http://json-schema.org/draft-07/schema#"

end Schema

/-- The schema of service definitions. -/
def schema : Json :=
  .object
    ([("$schema", .string Schema.dialect), ("title", .string "ServiceDefinition")] ++
      Schema.described "Root of a service definition." ++ Schema.service ++
      [("definitions", .object
        [("Capabilities", .object Schema.capabilities),
          ("Cardinality", .object Schema.cardinality),
          ("EntitySetDefinition", .object Schema.entitySet),
          ("FieldDefinition", .object Schema.field),
          ("RelationshipDefinition", .object Schema.relationship)])])

end OData.Definition
