/-
Files, as a command sees them.

A command only asks whether something is there, reads a text, makes directories and writes a text,
so it runs over anything that does these things.  Directories are made one at a time: those around a
directory come first, but only if it cannot be made without them.

* `CommandLine.FileFault` — why a file cannot be read or written;
* `CommandLine.FileAccess` — what can be done with files;
* `CommandLine.pathFault?`, `CommandLine.joinPath`, `CommandLine.withAncestors` — paths;
* `CommandLine.FileAccess.makeDirectories` — a directory with all that it is in.
-/

set_option relaxedAutoImplicit false
set_option autoImplicit false

namespace OData.CommandLine

/-! ### Access -/

/-- Why a file cannot be read or written. -/
inductive FileFault where
  | notFound
  /-- There is something where a directory should be made. -/
  | alreadyThere
  /-- Something on the way is no directory. -/
  | notDirectory
  /-- A directory cannot be read as a text. -/
  | isDirectory
  /-- A path, or a name in it, is too long. -/
  | tooLong
  /-- A path has a NUL in it. -/
  | holdsNull
  /-- Any other reason, in its own words. -/
  | other (message : String)
deriving DecidableEq, Repr

/-- The text of a fault. -/
def FileFault.message : FileFault → String
  | notFound => "No such file or directory (os error 2)"
  | alreadyThere => "File exists (os error 17)"
  | notDirectory => "Not a directory (os error 20)"
  | isDirectory => "Is a directory (os error 21)"
  | tooLong => "File name too long (os error 36)"
  | holdsNull => "file name contained an unexpected NUL byte"
  | other message => message

/-- What a command does with files, in some monad. -/
structure FileAccess (m : Type → Type) where
  /-- Whether there is anything at a path. -/
  isThere : String → m Bool
  /-- Whether there is a directory at a path. -/
  isDirectory : String → m Bool
  /-- The text at a path. -/
  read : String → m (Except FileFault String)
  /-- Makes a directory in one that is there. -/
  makeDirectory : String → m (Except FileFault Unit)
  /-- Writes a text to a path. -/
  write : String → String → m (Except FileFault Unit)

/-! ### Paths -/

/-- The greatest number of bytes of a name. -/
def longestName : Nat := 255

/-- The greatest number of bytes of a path. -/
def longestPath : Nat := 4095

/-- The fault of a path that leads nowhere, whatever files there are. -/
def pathFault? (path : String) : Option FileFault :=
  if path.toList.contains '\x00' then some .holdsNull
  else if path.isEmpty then some .notFound
  else if longestPath < path.utf8ByteSize then some .tooLong
  else none

/-- The path of a name in a directory. -/
def joinPath (directory name : String) : String :=
  if directory.isEmpty || directory.toList.getLast? == some '/' then directory ++ name
  else directory ++ "/" ++ name

/-- Whether a path begins at the root of the whole system. -/
def isAbsolute (path : String) : Bool := path.toList.head? == some '/'

/-- The names of a path. -/
def names (path : String) : List String := (path.toList.splitOn '/').map String.ofList

/-- The names of a path that lead somewhere.  A dot does so only at its beginning. -/
def steps (path : String) : List String :=
  match names path with
  | [] => []
  | first :: rest => [first].filter (· != "") ++ rest.filter fun name => name != "" && name != "."

/-- A path and those of the directories around it, the outermost last.  Neither the place where
paths begin nor the root is among them. -/
def withAncestors (path : String) : List String :=
  let root := if isAbsolute path then "/" else ""
  let counts := ((List.range (steps path).length).drop 1).reverse
  path :: counts.map fun count => root ++ String.intercalate "/" ((steps path).take count)

/-! ### Directories -/

namespace FileAccess

variable {m : Type → Type} [Monad m]

/-- A directory that may be there already: what is left of the fault of making it. -/
def accept (files : FileAccess m) (path : String) :
    Except FileFault Unit → m (Except FileFault Unit)
  | .ok () => return .ok ()
  | .error fault => return if ← files.isDirectory path then .ok () else .error fault

/-- Makes the first of some directories; each of them is in the next. -/
def makeFirst (files : FileAccess m) : List String → m (Except FileFault Unit)
  | [] => return .ok ()
  | path :: around => do
    match ← files.makeDirectory path with
    | .error .notFound =>
      match ← files.makeFirst around with
      | .ok () => files.accept path (← files.makeDirectory path)
      | .error fault => return .error fault
    | result => files.accept path result

/-- Makes a directory, and those it is in. -/
def makeDirectories (files : FileAccess m) (path : String) : m (Except FileFault Unit) :=
  if path.isEmpty then return .ok () else files.makeFirst (withAncestors path)

end FileAccess

end OData.CommandLine
