/-
Reading nodes for what a program expects of them.

A decoder reads one kind of value and says what stands in its place otherwise, and where.  Texts
take any scalar as it is written.  Where nothing is written a sequence or a mapping is empty, and an
optional value is left out.  A record takes the members it knows, each at most once, and ignores all
others.

* `Yaml.Decoder` — decoders;
* `Yaml.Decoder.text`, `Decoder.bool`, `Decoder.count`, `Decoder.optional` — single values;
* `Yaml.Decoder.sequence`, `Decoder.mapping` — many of them;
* `Yaml.Member`, `Yaml.Decoder.record` — records;
* `Yaml.Decoder.json` — any value that JSON can write.
-/

import OData.Json.Basic
import OData.Yaml.Loading

set_option relaxedAutoImplicit false
set_option autoImplicit false

namespace OData.Yaml

/-- Reads a node at a place, with a number of levels left for sequences and mappings. -/
abbrev Decoder (α : Type) : Type := Nat → Path → Node → LoadM α

namespace Decoder

variable {α σ : Type}

/-! ### What else stands there -/

/-- Says what is wrong with the node at a place. -/
def reject (path : Path) (cause : Mismatch) : LoadM α := throw (.mismatch path cause)

/-- What stands in a value, if it can be loaded. -/
def foundIn : Data → Option Found
  | .null => some .nothing
  | .bool value => some (.bool value)
  | .integer value => if Data.fits value then some (.integer value) else none
  | .decimal value => some (.decimal value)
  | .string text => some (.string text)
  | .sequence _ => some .sequence
  | .mapping _ => some .mapping
  | .tagged _ _ => some .tagged

/-- Says that another kind of node is expected at a place. -/
def rejectKind (path : Path) (expected : String) (node : Node) : LoadM α :=
  match node with
  | .scalar tag style text =>
    match (resolveScalar? tag style text).bind foundIn with
    | some found => reject path (.kind found expected)
    | none => throw .unloadable
  | .sequence _ _ => reject path (.kind .sequence expected)
  | .mapping _ _ => reject path (.kind .mapping expected)
  | .reference _ => throw .unloadable

/-! ### Single values -/

/-- A text, expected under some name. -/
def textAs (expected : String) : Decoder String := fun _ path node => do
  match ← follow node with
  | .scalar _ _ text => return text
  | node => rejectKind path expected node

/-- A text. -/
def text : Decoder String := textAs "a string"

/-- Whether a scalar may be read as a value of a kind: it is plain, or its tag asks for that kind
and its lines are literal. -/
def isLiteralOf (kind : CoreTag) (tag : Option Tag) (style : Style) : Bool :=
  style == .plain || (style == .literal && tag == some (.core kind))

/-- A truth value. -/
def bool : Decoder Bool := fun _ path node => do
  let node ← follow node
  match node with
  | .scalar tag style text =>
    match if isLiteralOf .bool tag style then Plain.bool? text else none with
    | some value => return value
    | none => rejectKind path "a boolean" node
  | node => rejectKind path "a boolean" node

/-- One more than the greatest count. -/
def countLimit : Nat := Nat.pow 2 32

/-- A count of 32 bits. -/
def count : Decoder Nat := fun _ path node => do
  let node ← follow node
  match node with
  | .scalar tag style text =>
    match if isLiteralOf .int tag style then Plain.unsigned? text else none with
    | some value =>
      if value < countLimit then return value
      else if value < Nat.pow 2 64 then reject path (.value (.integer value) "u32")
      else rejectKind path "u32" node
    | none => rejectKind path "u32" node
  | node => rejectKind path "u32" node

/-- Whether a node says that an optional value is left out.  A tag that asks for nothing suffers no
other text. -/
def isLeftOut (node : Node) : LoadM Bool :=
  match node with
  | .scalar none .plain text => return text.isEmpty || Plain.isNull text
  | .scalar (some (.core .null)) .plain text =>
    if Plain.isNull text then return true else throw .unloadable
  | _ => return false

/-- A value that may be left out. -/
def optional (decoder : Decoder α) : Decoder (Option α) := fun depth path node => do
  let node ← follow node
  if ← isLeftOut node then return none else some <$> decoder depth path node

/-! ### Many values -/

/-- Whether a node is not written at all. -/
def isUnwritten : Node → Bool
  | .scalar _ .plain text => text.isEmpty
  | _ => false

/-- Goes down one level. -/
def descend (depth : Nat) : LoadM Nat :=
  match depth with
  | 0 => throw .unloadable
  | depth + 1 => return depth

/-- The items of a sequence. -/
def items (path : Path) (node : Node) : LoadM (List Node) :=
  match node with
  | .sequence _ items => return items
  | node => if isUnwritten node then return [] else rejectKind path "a sequence" node

/-- The members of a mapping, expected under some name. -/
def members (expected : String) (path : Path) (node : Node) : LoadM (List (Node × Node)) :=
  match node with
  | .mapping _ members => return members
  | node => if isUnwritten node then return [] else rejectKind path expected node

/-- The place of the value of a member. -/
def memberPath (path : Path) : Node → Path
  | .scalar _ _ text => .member text :: path
  | _ => .unnamed :: path

/-- A sequence of values of one kind. -/
def sequence (decoder : Decoder α) : Decoder (List α) := fun depth path node => do
  let nodes ← items path (← follow node)
  if nodes.isEmpty then return []
  let depth ← descend depth
  nodes.zipIdx.mapM fun (node, index) => decoder depth (.item index :: path) node

/-- A mapping to values of one kind.  Of members with one name the last counts, in the place of the
first. -/
def mapping (decoder : Decoder α) : Decoder (Ordered α) := fun depth path node => do
  let nodes ← members "a map" path (← follow node)
  if nodes.isEmpty then return []
  let depth ← descend depth
  let pairs ← nodes.mapM fun (key, value) => do
    let name ← text depth path key
    return (name, ← decoder depth (memberPath path key) value)
  return Ordered.ofList pairs

/-! ### Records -/

end Decoder

/-- A member of a record, and what reading it does to the record. -/
structure Member (σ : Type) where
  name : String
  update : Decoder (σ → σ)

namespace Decoder

variable {α σ : Type}

/-- A member whose value is put into a record. -/
def member (name : String) (decoder : Decoder α) (put : σ → α → σ) : Member σ where
  name
  update depth path node := do
    let value ← decoder depth path node
    return fun record => put record value

/-- A record, of which only some members are needed.  The members it lacks stay as they are in
`start`. -/
def recordOf (known : List (Member σ)) (needed : List String) (start : σ) (depth : Nat)
    (path : Path) (nodes : List (Node × Node)) : LoadM σ := do
  let (record, seen) ← nodes.foldlM (fun (state : σ × List String) (key, value) => do
    let name ← textAs "field identifier" depth path key
    match known.find? (·.name == name) with
    | none => return state
    | some known =>
      if state.2.contains name then reject path (.repeatedMember name)
      let update ← known.update depth (memberPath path key) value
      return (update state.1, name :: state.2)) (start, [])
  match needed.find? fun name => !seen.contains name with
  | some name => reject path (.missingMember name)
  | none => return record

/-- A record that a mapping writes, expected under some name. -/
def record (expected : String) (known : List (Member σ)) (needed : List String) (start : σ) :
    Decoder σ := fun depth path node => do
  let nodes ← members expected path (← follow node)
  if nodes.isEmpty then recordOf known needed start depth path []
  else recordOf known needed start (← descend depth) path nodes

/-! ### Values of any kind -/

/-- The JSON value of a scalar; decimals that JSON cannot write are null. -/
def jsonOf? : Data → Option Json
  | .null => some .null
  | .bool value => some (.bool value)
  | .integer value => if Data.fits value then some (.int value) else none
  | .decimal value => some (if value.isFinite then .decimal value else .null)
  | .string text => some (.string text)
  | _ => none

/-- Any value that JSON can write, the members of objects in the order of their names. -/
def json : Decoder Json
  | depth, path, node => do
    match ← follow node with
    | .reference _ => throw .unloadable
    | .scalar tag style text =>
      if (ownName? tag).isSome then reject path (.kind .tagged "any valid JSON value")
      match (resolveScalar? tag style text).bind jsonOf? with
      | some value => return value
      | none => throw .unloadable
    | .sequence tag items =>
      if (ownName? tag).isSome then reject path (.kind .tagged "any valid JSON value")
      match depth with
      | 0 => throw .unloadable
      | depth + 1 =>
        let values ← items.zipIdx.mapM fun (item, index) => json depth (.item index :: path) item
        return .array values
    | .mapping tag members =>
      if (ownName? tag).isSome then reject path (.kind .tagged "any valid JSON value")
      match depth with
      | 0 => throw .unloadable
      | depth + 1 =>
        let pairs ← members.zipIdx.mapM fun ((key, value), index) => do
          let name ← textAs (if index = 0 then "a string key" else "a string") depth path key
          return (name, ← json depth (memberPath path key) value)
        return .object (Json.sortMembers (Ordered.ofList pairs))

end Decoder

end OData.Yaml
