/-
The nodes of a YAML document.

A node is a scalar, a sequence, a mapping, or an alias for a node that is anchored elsewhere.  What
a plain scalar stands for is not decided here.

* `Yaml.Node` — nodes;
* `Yaml.Document` — a document: its root, and the nodes that aliases stand for.
-/

import OData.Yaml.Token.Basic

set_option relaxedAutoImplicit false
set_option autoImplicit false

namespace OData.Yaml

/-- A node of a document. -/
inductive Node where
  | scalar (tag : Option Tag) (style : Style) (text : String)
  | sequence (tag : Option Tag) (items : List Node)
  | mapping (tag : Option Tag) (members : List (Node × Node))
  /-- An alias for the node that an anchor of some number marks. -/
  | reference (number : Nat)

namespace Node

/-- A node that is not written at all. -/
def empty : Node := .scalar none .plain ""

/-- Whether a node is an alias. -/
def isReference : Node → Bool
  | reference _ => true
  | _ => false

end Node

/-- A document. -/
structure Document where
  /-- The root, unless the text holds no document. -/
  root : Option Node
  /-- The nodes that anchors mark, by their numbers. -/
  anchors : List (Nat × Node) := []
  /-- The number of scalars, aliases, and beginnings and ends of sequences and mappings. -/
  size : Nat := 0

/-- The node that an alias stands for. -/
def Document.target? (document : Document) (number : Nat) : Option Node :=
  document.anchors.lookup number

end OData.Yaml
