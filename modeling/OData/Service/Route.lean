/-
Resource paths.

A path addresses the metadata document, an entity set or one record of a set.  Slashes and blanks
around it and the base path in front of it do not matter.  A record is addressed by its key in
parentheses or behind a slash; single quotes around the key are dropped.

* `Route` — what a path addresses;
* `Route.ofPath?` — the route of a path, if it has one.
-/

import OData.Query.Pieces
import OData.Text.Blank
import OData.Text.Quoted

set_option relaxedAutoImplicit false
set_option autoImplicit false

namespace OData

/-- What a resource path addresses. -/
inductive Route where
  /-- The metadata document. -/
  | metadata
  /-- All records of an entity set. -/
  | collection (set : String)
  /-- The record of an entity set with some key. -/
  | entity (set : String) (id : String)
deriving DecidableEq

namespace Route

/-- The form of a route in messages. -/
def display : Route → String
  | metadata => "Metadata"
  | collection set => "Collection(" ++ Text.quoted set ++ ")"
  | entity set id => "Entity(" ++ Text.quoted set ++ ", " ++ Text.quoted id ++ ")"

/-- The path in front of every resource, which may be left out. -/
def basePath : List Char := "odata/v4/".toList

/-- A text without the slashes around it. -/
def trimSlashes (cs : List Char) : List Char :=
  ((cs.dropWhile (· == '/')).reverse.dropWhile (· == '/')).reverse

/-- A path without blanks, slashes and the base path. -/
def localPath (path : List Char) : List Char :=
  let bare := trimSlashes (Text.trim path)
  if basePath.isPrefixOf bare then bare.drop basePath.length else bare

/-- A text without its last character, if that is the given one. -/
def dropLast? (last : Char) (cs : List Char) : Option (List Char) :=
  if cs.getLast? = some last then some cs.dropLast else none

@[simp] theorem dropLast?_concat (last : Char) (cs : List Char) :
    dropLast? last (cs ++ [last]) = some cs := by
  simp [dropLast?]

/-- A key without the single quotes around it. -/
def unquoted (id : List Char) : List Char :=
  match id with
  | '\'' :: rest => (dropLast? '\'' rest).getD id
  | _ => id

/-- The route to a record, unless the set or the key is empty or the key holds a slash. -/
def entity? (set id : List Char) : Option Route :=
  let key := unquoted (Text.trim id)
  if set.isEmpty || key.isEmpty || key.contains '/' then none
  else some (entity (String.ofList set) (String.ofList key))

/-- The route of a path without its base.  The first parenthesis decides before the first slash. -/
def ofLocalPath? (path : List Char) : Option Route :=
  if path.isEmpty then none
  else if path = "$metadata".toList then some metadata
  else
    match Query.splitOnce '(' path with
    | some (set, rest) => (dropLast? ')' rest).bind (entity? set)
    | none =>
      match Query.splitOnce '/' path with
      | some (set, id) => entity? set id
      | none => some (collection (String.ofList path))

/-- The route of a path. -/
def ofPath? (path : String) : Option Route := ofLocalPath? (localPath path.toList)

end Route

end OData
