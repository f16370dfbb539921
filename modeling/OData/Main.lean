/-
The program.

It reads its words, carries the command out on the files there are, and prints what the command has
to say.  A command that fails ends with status one, words that are no command with status two.

* `main` — the program.
-/

import OData.CommandLine.Run

set_option relaxedAutoImplicit false
set_option autoImplicit false

namespace OData.CommandLine

/-! ### The files there are -/

/-- The fault of a failed operation on files. -/
def FileFault.ofError (error : IO.Error) : FileFault :=
  match error with
  | .noFileOrDirectory .. => .notFound
  | .alreadyExists _ 17 _ => .alreadyThere
  | .inappropriateType _ 20 _ => .notDirectory
  | .inappropriateType _ 21 _ => .isDirectory
  | .invalidArgument _ 36 _ => .tooLong
  | error => .other (toString error)

/-- An operation at a path, with its fault if it fails. -/
def attempt {α : Type} (path : String) (operation : IO α) : BaseIO (Except FileFault α) := do
  match pathFault? path with
  | some fault => return .error fault
  | none => return (← operation.toBaseIO).mapError FileFault.ofError

/-- Opens what stands at a path. -/
def openAt (path : String) : BaseIO (Except FileFault IO.FS.Handle) :=
  attempt path (IO.FS.Handle.mk path .read)

/-- The files of the system. -/
def systemFiles : FileAccess BaseIO where
  isThere path := do
    match ← openAt path with
    | .ok _ | .error (.other _) => return true
    | .error _ => return false
  isDirectory path := return (← openAt (joinPath path ".")).isOk
  read path := attempt path (IO.FS.readFile path)
  makeDirectory path := attempt path (IO.FS.createDir path)
  write path text := attempt path (IO.FS.writeFile path text)

/-! ### Words that are no command -/

/-- How the program is called. -/
def usageText : String :=
  "Usage: odata4rs [OPTIONS] <COMMAND>\n\nCommands:\n" ++
    String.join (root.verbs.map fun verb => "  " ++ verb ++ "\n")

/-- The name and version of the program. -/
def versionText : String := "odata4rs 0.3.0\n"

/-- Whether words only ask for a text about the program, and that text. -/
def Usage.asked? : Usage → Option String
  | helpAsked => some usageText
  | versionAsked => some versionText
  | _ => none

/-- What is wrong with words. -/
def Usage.reason : Usage → String
  | helpAsked | versionAsked => ""
  | nothingGiven | missingVerb => "a command is needed"
  | unknownVerb => "there is no such command"
  | unknownWord => "unexpected argument"
  | badValue => "a value is missing or cannot be used"
  | valueTooMany => "an option has a value that takes none"
  | repeated => "an option is given twice"
  | missingWord => "an argument is missing"

end OData.CommandLine

open OData.CommandLine

/-- Carries out the command that some words give. -/
def main (words : List String) : IO UInt32 := do
  match Command.ofWords words with
  | .error usage =>
    match usage.asked? with
    | some text =>
      IO.print text
      return 0
    | none =>
      IO.eprint ("error: " ++ usage.reason ++ "\n\n" ++ usageText)
      return 2
  | .ok command =>
    let outcome ← (command.run systemFiles : BaseIO Outcome)
    IO.print outcome.output
    IO.eprint outcome.errors
    match outcome.result with
    | .ok () => return 0
    | .error failure =>
      IO.eprintln ("error: " ++ failure.message)
      return 1
