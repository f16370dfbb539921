/-
Files in memory.

Paths are walked step by step as a file system walks them, so that each step has to begin in a
directory.

* `CommandLine.FileTree` — a tree of files;
* `CommandLine.FileTree.walk` — the place that a path leads to;
* `CommandLine.FileTree.read`, `FileTree.write`, `FileTree.makeDirectory` — what can be done there;
* `CommandLine.FileTree.access`, `FileTree.ofFiles` — a tree for commands, and the tree of some
  files.
-/

import OData.CommandLine.Files

set_option relaxedAutoImplicit false
set_option autoImplicit false

namespace OData.CommandLine

/-- What stands at a place of a tree. -/
inductive Entry where
  | directory
  | file (text : String)
deriving DecidableEq, Repr

/-- A tree of files.  A place is given by the names that lead to it, the last one first.  The root
and the directories around it are always there. -/
structure FileTree where
  entries : List (List String × Entry) := []

namespace FileTree

/-! ### Places -/

/-- Whether a place is the root or around it. -/
def isAround (place : List String) : Bool := place.all (· == "..")

/-- What stands at a place. -/
def stands? (tree : FileTree) (place : List String) : Option Entry :=
  if isAround place then some .directory else tree.entries.lookup place

/-- Puts something at a place. -/
def put (tree : FileTree) (place : List String) (entry : Entry) : FileTree :=
  ⟨(place, entry) :: tree.entries⟩

/-- A place that has to be a directory. -/
def directoryAt (tree : FileTree) (place : List String) : Except FileFault Unit :=
  match tree.stands? place with
  | some .directory => .ok ()
  | some (.file _) => .error .notDirectory
  | none => .error .notFound

/-- Whether a name only leads to where a path already is, or back. -/
def isDots (name : String) : Bool := name == "" || name == "." || name == ".."

/-- One step from a place, which has to be a directory. -/
def step (tree : FileTree) (place : List String) (name : String) :
    Except FileFault (List String) := do
  tree.directoryAt place
  if name = ".." then return if isAround place then name :: place else place.drop 1
  else if isDots name then return place
  else if longestName < name.utf8ByteSize then throw .tooLong
  else return name :: place

/-- The place that some names lead to. -/
def walkNames (tree : FileTree) (names : List String) : Except FileFault (List String) :=
  names.foldlM tree.step []

/-- Whether a path can lead to a place.  One from the root of the whole system leads out of the
tree. -/
def checkPath (path : String) : Except FileFault Unit :=
  match pathFault? path with
  | some fault => .error fault
  | none => if isAbsolute path then .error .notFound else .ok ()

/-- The place that a path leads to. -/
def walk (tree : FileTree) (path : String) : Except FileFault (List String) := do
  checkPath path
  tree.walkNames (names path)

/-! ### Files and directories -/

/-- What stands where a path leads to. -/
def find? (tree : FileTree) (path : String) : Option Entry :=
  (tree.walk path).toOption.bind tree.stands?

/-- The text at a path. -/
def read (tree : FileTree) (path : String) : Except FileFault String := do
  match tree.stands? (← tree.walk path) with
  | some (.file text) => return text
  | some .directory => throw .isDirectory
  | none => throw .notFound

/-- Writes a text to a path. -/
def write (tree : FileTree) (path text : String) : Except FileFault FileTree := do
  let place ← tree.walk path
  tree.directoryAt (place.drop 1)
  match tree.stands? place with
  | some .directory => throw .isDirectory
  | _ => return tree.put place (.file text)

/-- Makes a directory of a name at a place. -/
def makeAt (tree : FileTree) (place : List String) (name : String) : Except FileFault FileTree := do
  tree.directoryAt place
  if isDots name then throw .alreadyThere
  let place ← tree.step place name
  match tree.stands? place with
  | some _ => throw .alreadyThere
  | none => return tree.put place .directory

/-- Makes the directory that a path leads to, in one that is there. -/
def makeDirectory (tree : FileTree) (path : String) : Except FileFault FileTree := do
  checkPath path
  match (names path).reverse.dropWhile (· == "") with
  | [] => throw .alreadyThere
  | name :: around => tree.makeAt (← tree.walkNames around.reverse) name

/-! ### Commands -/

/-- Changes a tree in a state, unless there is a fault. -/
def change (f : FileTree → Except FileFault FileTree) :
    StateM FileTree (Except FileFault Unit) := do
  match f (← get) with
  | .ok tree =>
    set tree
    return .ok ()
  | .error fault => return .error fault

/-- The files of a tree, for commands. -/
def access : FileAccess (StateM FileTree) where
  isThere path := return ((← get).find? path).isSome
  isDirectory path := return (← get).find? path == some .directory
  read path := return (← get).read path
  makeDirectory path := change (·.makeDirectory path)
  write path text := change (·.write path text)

/-- Puts a file into a tree, with the directories that it is in. -/
def addFile (path text : String) : StateM FileTree Unit := do
  let _ ← access.makeDirectories (String.intercalate "/" (names path).dropLast)
  let _ ← access.write path text

/-- The tree of some files, with the directories that they are in. -/
def ofFiles (files : List (String × String)) : FileTree :=
  ((files.forM fun (path, text) => addFile path text).run {}).2

end FileTree

end OData.CommandLine
