/-
The document of a text.

Tokens already say where blocks begin and end, so a document is read by descent: each kind of node
begins with a token of its own.  A node may be left out after a dash, a key or a colon.  A list of
items may stand without a block of its own as a member of a block of members.

* `Yaml.Notes` — the handles and anchors seen so far;
* `Yaml.Parsed` — what was read, and the tokens behind it;
* `Yaml.readNode` — a node with all that is in it;
* `Yaml.Document.ofTokens`, `Yaml.Document.ofText` — the single document of a text.
-/

import OData.Yaml.Node
import OData.Yaml.Token.Layout

set_option relaxedAutoImplicit false
set_option autoImplicit false

namespace OData.Yaml

/-! ### Handles and anchors -/

/-- What is known so far while a document is read. -/
structure Notes where
  /-- What the handles of tags stand for. -/
  handles : List (String × TagText)
  /-- The numbers of the anchors. -/
  names : List (String × Nat) := []
  /-- Where the node behind each number begins, latest first. -/
  starts : List (Nat × Nat) := []
  /-- The nodes that are complete, by their beginnings. -/
  nodes : List (Nat × Node) := []
  /-- The size of what was read. -/
  size : Nat := 0

/-- Reading with notes. -/
abbrev ReadM := StateT Notes (Except Problem)

/-- The handles that are always declared. -/
def commonHandles : List (String × TagText) :=
  [("!", .ofList ['!']), ("!!", .ofList coreTagStart.toList)]

/-- The number of different names that anchors have so far. -/
def Notes.anchorCount (notes : Notes) : Nat := (notes.names.map Prod.fst).eraseDups.length

/-- Notes the beginning of a node; an anchor gets the number of the names known before it. -/
def beginNode (anchor : Option String) : ReadM Nat := do
  let notes ← get
  let start := notes.size
  match anchor with
  | none => set { notes with size := start + 1 }
  | some name =>
    let number := notes.anchorCount
    set
      { notes with
        names := (name, number) :: notes.names
        starts := (number, start) :: notes.starts
        size := start + 1 }
  return start

/-- Notes a node that is complete. -/
def endNode (anchor : Option String) (start : Nat) (node : Node) : ReadM Node := do
  let notes ← get
  let size := match node with
    | .sequence .. | .mapping .. => notes.size + 1
    | _ => notes.size
  set { notes with
    size
    nodes := if anchor.isSome then (start, node) :: notes.nodes else notes.nodes }
  return node

/-- A node that is left out. -/
def readEmpty : ReadM Node := do
  let start ← beginNode none
  endNode none start .empty

/-- The node that an alias stands for. -/
def readAlias (name : String) : ReadM Node := do
  match (← get).names.lookup name with
  | none => throw .unknownAlias
  | some number =>
    let start ← beginNode none
    endNode none start (.reference number)

/-- The tag that a handle and a suffix make. -/
def resolveTag : Option (String × TagText) → ReadM (Option Tag)
  | none => return none
  | some (handle, suffix) => do
    if handle = "" then return some (.ofText suffix)
    match (← get).handles.lookup handle with
    | some start => return some (.ofText (start ++ suffix))
    | none => throw .badTag

/-! ### What was read -/

/-- What was read from some tokens, and the tokens behind it, which are no more than there were. -/
structure Parsed (α : Type) (ts : List Token) where
  value : α
  rest : List Token
  length_le : rest.length ≤ ts.length

/-- Nothing was read yet. -/
def Parsed.here {α : Type} (value : α) (ts : List Token) : Parsed α ts := ⟨value, ts, Nat.le_refl _⟩

/-- Another value read from the same tokens or more. -/
def Parsed.giving {α β : Type} {ts all : List Token} (parsed : Parsed α ts) (value : β)
    (h : ts.length ≤ all.length) : Parsed β all :=
  ⟨value, parsed.rest, Nat.le_trans parsed.length_le h⟩

/-! ### Nodes -/

/-- What stands before a node. -/
structure Properties where
  anchor : Option String := none
  tag : Option (String × TagText) := none

/-- The anchor and the tag that tokens begin with, in either order. -/
def properties : (ts : List Token) → Parsed Properties ts
  | .anchor name :: .tag handle suffix :: rest =>
    ⟨⟨some name, some (handle, suffix)⟩, rest, by simp; omega⟩
  | .tag handle suffix :: .anchor name :: rest =>
    ⟨⟨some name, some (handle, suffix)⟩, rest, by simp; omega⟩
  | .anchor name :: rest => ⟨⟨some name, none⟩, rest, by simp⟩
  | .tag handle suffix :: rest => ⟨⟨none, some (handle, suffix)⟩, rest, by simp⟩
  | rest => .here {} rest

/-- The alias that tokens begin with. -/
def headAlias? : (ts : List Token) → Option (Parsed String ts)
  | .reference name :: rest => some ⟨name, rest, by simp⟩
  | _ => none

/-- Whether tokens begin with one of some tokens. -/
def nextIs (ends : List Token) (ts : List Token) : Bool :=
  ts.head?.any fun token => ends.contains token

/-- A node of which only an anchor or a tag is written. -/
def readBare (anchor : Option String) (tag : Option Tag) (start : Nat) : ReadM Node :=
  if anchor.isSome || tag.isSome then endNode anchor start (.scalar tag .plain "")
  else throw .unexpectedToken

mutual

/-- Reads a node.  `inBlock` says whether it may be a block, and `dashes` whether it may be a list
of items without a block of its own. -/
def readNode (inBlock dashes : Bool) (ts : List Token) : ReadM (Parsed Node ts) := do
  if let some reference := headAlias? ts then
    return reference.giving (← readAlias reference.value) (Nat.le_refl _)
  let props := properties ts
  let anchor := props.value.anchor
  let tag ← resolveTag props.value.tag
  let start ← beginNode anchor
  have _length := props.length_le
  match _head : props.rest with
  | [] => return props.giving (← readBare anchor tag start) (Nat.le_refl _)
  | token :: rest =>
    have _shorter : rest.length < ts.length := by
      rw [_head, List.length_cons] at _length
      omega
    match token, inBlock with
    | .scalar style text, _ =>
      return ⟨← endNode anchor start (.scalar tag style text), rest, by omega⟩
    | .flowSequenceStart, _ =>
      let items ← readFlowItems rest
      return items.giving (← endNode anchor start (.sequence tag items.value)) (by omega)
    | .flowMappingStart, _ =>
      let members ← readFlowMembers rest
      return members.giving (← endNode anchor start (.mapping tag members.value)) (by omega)
    | .sequenceStart, true =>
      let items ← readItems rest
      return items.giving (← endNode anchor start (.sequence tag items.value)) (by omega)
    | .mappingStart, true =>
      let members ← readMembers rest
      return members.giving (← endNode anchor start (.mapping tag members.value)) (by omega)
    | token, _ =>
      if dashes && token == .item then
        let items ← readDashes rest
        return items.giving (← endNode anchor start (.sequence tag items.value)) (by omega)
      else return props.giving (← readBare anchor tag start) (Nat.le_refl _)
termination_by (ts.length, 0)

/-- Reads a node, unless it is left out before one of some tokens. -/
def readContent (ends : List Token) (inBlock dashes : Bool) (ts : List Token) :
    ReadM (Parsed Node ts) := do
  if nextIs ends ts then return .here (← readEmpty) ts else readNode inBlock dashes ts
termination_by (ts.length, 1)

/-- Reads the value behind a key, which is empty if there is no colon. -/
def readValue (ends : List Token) (inBlock : Bool) (ts : List Token) : ReadM (Parsed Node ts) :=
  match ts with
  | .value :: rest => do
    let node ← readContent ends inBlock inBlock rest
    return node.giving node.value (by simp)
  | ts => do return .here (← readEmpty) ts
termination_by (ts.length, 0)

/-- Reads a member behind the sign of its key, up to one of some tokens. -/
def readMember (ends : List Token) (inBlock : Bool) (ts : List Token) :
    ReadM (Parsed (Node × Node) ts) := do
  let key ← readContent (.value :: ends) inBlock inBlock ts
  have _key := key.length_le
  let value ← readValue (if inBlock then .value :: ends else ends) inBlock key.rest
  return value.giving (key.value, value.value) _key
termination_by (ts.length, 2)
decreasing_by all_goals (simp [Prod.lex_def] <;> omega)

/-- Reads the items of a block. -/
def readItems (ts : List Token) : ReadM (Parsed (List Node) ts) :=
  match ts with
  | .item :: rest => do
    let node ← readContent [.item, .blockEnd] true false rest
    have _node := node.length_le
    let nodes ← readItems node.rest
    return nodes.giving (node.value :: nodes.value) (by simp; omega)
  | .blockEnd :: rest => return ⟨[], rest, by simp⟩
  | _ => throw .unexpectedToken
termination_by (ts.length, 0)

/-- Reads items without a block of their own, behind the first dash. -/
def readDashes (ts : List Token) : ReadM (Parsed (List Node) ts) := do
  let node ← readContent [.item, .key, .value, .blockEnd] true false ts
  have _node := node.length_le
  match _head : node.rest with
  | .item :: rest =>
    have _shorter : rest.length < ts.length := by
      rw [_head, List.length_cons] at _node
      omega
    let nodes ← readDashes rest
    return nodes.giving (node.value :: nodes.value) (by omega)
  | rest => return node.giving [node.value] (Nat.le_refl _)
termination_by (ts.length, 2)

/-- Reads the members of a block. -/
def readMembers (ts : List Token) : ReadM (Parsed (List (Node × Node)) ts) :=
  match ts with
  | .key :: rest => do
    let member ← readMember [.key, .blockEnd] true rest
    have _member := member.length_le
    let members ← readMembers member.rest
    return members.giving (member.value :: members.value) (by simp; omega)
  | .blockEnd :: rest => return ⟨[], rest, by simp⟩
  | _ => throw .unexpectedToken
termination_by (ts.length, 0)

/-- Reads an item in brackets that is a mapping of one member, behind the sign of its key.  A key
that is left out takes the token behind it along. -/
def readPair (ts : List Token) : ReadM (Parsed Node ts) := do
  let start ← beginNode none
  let key ← readPairKey ts
  have _key := key.length_le
  let value ← readValue [.comma, .flowSequenceEnd] false key.rest
  return value.giving (← endNode none start (.mapping none [(key.value, value.value)])) _key
termination_by (ts.length, 2)
decreasing_by all_goals (simp [Prod.lex_def] <;> omega)

/-- Reads the key of such a member. -/
def readPairKey (ts : List Token) : ReadM (Parsed Node ts) := do
  if nextIs [.value, .comma, .flowSequenceEnd] ts then
    return ⟨← readEmpty, ts.drop 1, by simp⟩
  else readNode false false ts
termination_by (ts.length, 1)

/-- Reads the items in brackets, at the first of them or behind a comma. -/
def readFlowItems (ts : List Token) : ReadM (Parsed (List Node) ts) :=
  match ts with
  | .flowSequenceEnd :: rest => return ⟨[], rest, by simp⟩
  | .key :: rest => do
    let node ← readPair rest
    have _node := node.length_le
    let nodes ← readMoreItems node.rest
    return nodes.giving (node.value :: nodes.value) (by simp; omega)
  | ts => do
    let node ← readNode false false ts
    have _node := node.length_le
    let nodes ← readMoreItems node.rest
    return nodes.giving (node.value :: nodes.value) _node
termination_by (ts.length, 1)
decreasing_by all_goals (simp [Prod.lex_def] <;> omega)

/-- Reads what stands behind an item in brackets: the closing bracket, or a comma, behind which more
items may follow. -/
def readMoreItems (ts : List Token) : ReadM (Parsed (List Node) ts) :=
  match ts with
  | .flowSequenceEnd :: rest => return ⟨[], rest, by simp⟩
  | .comma :: rest => do
    let nodes ← readFlowItems rest
    return nodes.giving nodes.value (by simp)
  | _ => throw .unexpectedToken
termination_by (ts.length, 0)

/-- Reads the members in braces, at the first of them or behind a comma. -/
def readFlowMembers (ts : List Token) : ReadM (Parsed (List (Node × Node)) ts) :=
  match ts with
  | .flowMappingEnd :: rest => return ⟨[], rest, by simp⟩
  | .key :: rest => do
    let member ← readMember [.comma, .flowMappingEnd] false rest
    have _member := member.length_le
    let members ← readMoreMembers member.rest
    return members.giving (member.value :: members.value) (by simp; omega)
  | ts => do
    let key ← readNode false false ts
    have _key := key.length_le
    let value ← readEmpty
    let members ← readMoreMembers key.rest
    return members.giving ((key.value, value) :: members.value) _key
termination_by (ts.length, 1)
decreasing_by all_goals (simp [Prod.lex_def] <;> omega)

/-- Reads what stands behind a member in braces: the closing brace, or a comma, behind which more
members may follow. -/
def readMoreMembers (ts : List Token) : ReadM (Parsed (List (Node × Node)) ts) :=
  match ts with
  | .flowMappingEnd :: rest => return ⟨[], rest, by simp⟩
  | .comma :: rest => do
    let members ← readFlowMembers rest
    return members.giving members.value (by simp)
  | _ => throw .unexpectedToken
termination_by (ts.length, 0)

end

/-! ### Documents -/

/-- Reads the lines at the head of a document: the handles they declare, whether there are any, and
the tokens behind them. -/
def readHead (handles : List (String × TagText)) (hasVersion : Bool) :
    List Token → Except Problem (List (String × TagText) × Bool × List Token)
  | .version major minor :: rest =>
    if hasVersion || major != 1 || (minor != 1 && minor != 2) then .error .badDirective
    else readHead handles true rest
  | .handle handle start :: rest =>
    if (handles.lookup handle).isSome then .error .badDirective
    else readHead (handles ++ [(handle, start)]) hasVersion rest
  | rest => .ok (handles, hasVersion || !handles.isEmpty, rest)

/-- Whether a token cannot belong to the root of a document. -/
def endsRoot : List Token → Bool
  | [] => true
  | .version .. :: _ | .handle .. :: _ | .documentStart :: _ | .documentEnd :: _ => true
  | _ => false

/-- Reads the root of a document. -/
def readRoot (hasHead : Bool) (ts : List Token) : ReadM (Parsed Node ts) :=
  match ts with
  | .documentStart :: rest => do
    if endsRoot rest then return ⟨← readEmpty, rest, by simp⟩
    else
      let node ← readNode true false rest
      return node.giving node.value (by simp)
  | ts => if hasHead then throw .unexpectedToken else readNode true false ts

/-- The nodes that anchors mark at the end of a document.  Of several nodes with one number, that
which begins last counts. -/
def Notes.anchors (notes : Notes) : List (Nat × Node) :=
  notes.starts.filterMap fun (number, start) =>
    (notes.nodes.lookup start).map fun node => (number, node)

/-- The single document that tokens make. -/
def Document.ofTokens (ts : List Token) : Except Problem Document := do
  if ts.isEmpty then return { root := none }
  let (handles, hasHead, rest) ← readHead [] false ts
  let (root, notes) ← (readRoot hasHead rest).run { handles := handles ++ commonHandles }
  if !(root.rest.dropWhile (· == .documentEnd)).isEmpty then throw .severalDocuments
  return { root := some root.value, anchors := notes.anchors, size := notes.size }

/-- The single document of a text. -/
def Document.ofText (text : String) : Except Problem Document := do
  Document.ofTokens (← tokens text)

end OData.Yaml
