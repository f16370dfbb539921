/-
Reading the nodes of a document for what they say.

Aliases lead to nodes elsewhere, even to a node around them.  So a reader may only go down a limited
number of levels, and may only follow so many aliases for the size of the document.

* `Yaml.LoadError` — a document that cannot be loaded, or that says something else than expected;
* `Yaml.LoadM`, `Yaml.follow` — reading, and following an alias;
* `Yaml.depthLimit` — the number of levels of sequences and mappings;
* `Yaml.Data.ofNode`, `Yaml.Document.data` — a document for what it says, whatever it is about.
-/

import OData.Yaml.Data.Plain
import OData.Yaml.Mismatch

set_option relaxedAutoImplicit false
set_option autoImplicit false

namespace OData.Yaml

/-- Why a document cannot be read. -/
inductive LoadError where
  /-- The document cannot be loaded, whatever is expected of it. -/
  | unloadable
  /-- The document says something else than expected. -/
  | mismatch (path : Path) (cause : Mismatch)

/-- Reading a document, with the number of aliases followed. -/
abbrev LoadM := ReaderT Document (StateT Nat (Except LoadError))

/-- How many aliases may be followed for each unit of a document's size. -/
def aliasFactor : Nat := 100

/-- How many sequences and mappings may be nested. -/
def depthLimit : Nat := 128

/-- A node, or the one that it is an alias for. -/
def follow (node : Node) : LoadM Node := do
  match node with
  | .reference number =>
    let document ← read
    let count ← get
    if document.size * aliasFactor ≤ count then throw .unloadable
    set (count + 1)
    match document.target? number with
    | some target => return target
    | none => throw .unloadable
  | node => return node

namespace Data

/-- A value under the name that its tag may give to it.  One exclamation mark before a name makes no
difference. -/
def underTag (tag : Option Tag) (value : Data) : Data :=
  match ownName? tag with
  | none => value
  | some name => .tagged (String.ofList (unmarked name.toList)) value

/-- What a scalar says, whatever it is about. -/
def ofScalar (tag : Option Tag) (style : Style) (text : String) : LoadM Data :=
  match resolveScalar? tag style text with
  | some (.integer n) => if fits n then return underTag tag (.integer n) else throw .unloadable
  | some value => return underTag tag value
  | none => throw .unloadable

/-- What a node says, whatever it is about.  A mapping may not have a key twice. -/
def ofNode : Nat → Node → LoadM Data
  | depth, node => do
    match ← follow node with
    | .reference _ => throw .unloadable
    | .scalar tag style text => ofScalar tag style text
    | .sequence tag items =>
      match depth with
      | 0 => throw .unloadable
      | depth + 1 =>
        let values ← items.mapM (ofNode depth)
        return underTag tag (.sequence values)
    | .mapping tag members =>
      match depth with
      | 0 => throw .unloadable
      | depth + 1 =>
        let values ← members.foldlM (fun values (member : Node × Node) => do
          let key ← ofNode depth member.1
          if values.any fun (known : Data × Data) => known.1.same key then throw .unloadable
          return values ++ [(key, ← ofNode depth member.2)]) []
        return underTag tag (.mapping values)

end Data

/-- What a document says, whatever it is about. -/
def Document.data (document : Document) : Except LoadError Data :=
  match document.root with
  | none => .ok .null
  | some root => (((Data.ofNode depthLimit root).run document).run 0).map Prod.fst

/-- Whether a document can be loaded at all. -/
def Document.isLoadable (document : Document) : Bool :=
  match document.data with
  | .ok _ => true
  | .error _ => false

end OData.Yaml
