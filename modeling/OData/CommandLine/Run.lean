/-
Carrying out commands.

A command reads at most one definition and prints what it has to say.  It works over any access to
files, so that a program runs it on the files there are and a theorem speaks of it on a tree.

* `CommandLine.Failure`, `Failure.message` — why a command fails;
* `CommandLine.Outcome` — what a command prints, and whether it fails;
* `CommandLine.Command.run` — carrying out a command.
-/

import OData.CommandLine.Arguments
import OData.CommandLine.Files
import OData.Dataset.Build
import OData.Definition.Decode
import OData.Definition.Sample
import OData.Definition.Schema
import OData.Service.Basic

set_option relaxedAutoImplicit false
set_option autoImplicit false

namespace OData.CommandLine

/-- Why a command fails. -/
inductive Failure where
  /-- A definition would be overwritten. -/
  | alreadyThere (path : String)
  /-- A directory cannot be made. -/
  | notMade (path : String) (fault : FileFault)
  | notWritten (path : String) (fault : FileFault)
  | notRead (path : String) (fault : FileFault)
  /-- A file holds no definition. -/
  | noDefinition (problem : Definition.TextError)
  /-- A definition that was to be checked has faults. -/
  | faulty (count : Nat)
  /-- A definition that was to be served has faults. -/
  | unusable (faults : List Definition.Problem)
  /-- A request is answered by an error. -/
  | refused (status : Nat) (body : String)

/-- The text of a failure. -/
def Failure.message : Failure → String
  | alreadyThere path => path ++ " already exists"
  | notMade path fault => "cannot create " ++ path ++ ": " ++ fault.message
  | notWritten path fault => "cannot write " ++ path ++ ": " ++ fault.message
  | notRead path fault => "failed to read " ++ path ++ ": " ++ fault.message
  | noDefinition .malformed => "YAML parse error: malformed document"
  | noDefinition (.mismatch path cause) => Definition.messageOfMismatch path cause
  | faulty count => toString count ++ " validation error(s)"
  | unusable faults => Definition.messageOf faults
  | refused status body => toString status ++ ": " ++ body

/-- What a command prints, and whether it fails. -/
structure Outcome where
  result : Except Failure Unit := .ok ()
  output : String := ""
  errors : String := ""

namespace Outcome

/-- A command that fails. -/
def failed (failure : Failure) : Outcome := { result := .error failure }

/-- A command that prints a line. -/
def line (text : String) : Outcome := { output := text ++ "\n" }

/-- The outcome of what may fail. -/
def ofExcept : Except Failure Outcome → Outcome
  | .ok outcome => outcome
  | .error failure => failed failure

end Outcome

namespace Command

/-- The definition that a text writes. -/
def definitionOf (text : String) : Except Failure Definition :=
  (Definition.ofText text).mapError .noDefinition

/-- The service over a definition. -/
def serviceOf (definition : Definition) : Except Failure Service :=
  match definition.build with
  | .ok registry => .ok (Service.ofRegistry registry.value).value
  | .error faults => .error (.unusable faults)

/-- What checking a definition prints. -/
def checked (definition : Definition) : Outcome :=
  match definition.problems with
  | [] =>
    .line ("OK: " ++ definition.schemaName ++ " (" ++ toString definition.entitySets.length ++
      " entity sets, " ++ toString definition.relationships.length ++ " relationships)")
  | faults =>
    { result := .error (.faulty faults.length)
      errors := String.join (faults.map fun fault => "  ERROR: " ++ fault.message ++ "\n") }

/-- The path and the query of a request. -/
def splitUrl (url : String) : String × String :=
  let path := url.toList.takeWhile (· != '?')
  (String.ofList path, String.ofList (url.toList.drop (path.length + 1)))

/-- What answering a request prints. -/
def answered (service : Service) (url : String) : Outcome :=
  let (path, query) := splitUrl url
  let response := (service.handle path query).value
  if 400 ≤ response.status then .failed (.refused response.status response.body)
  else .line response.body

/-- What a command that reads a definition prints. -/
def respond (command : Command) (text : String) : Except Failure Outcome := do
  let definition ← definitionOf text
  match command with
  | .metadata _ tagOnly =>
    let service ← serviceOf definition
    return if tagOnly then .line service.metadata.etag else { output := service.metadata.xml }
  | .get _ url => return answered (← serviceOf definition) url
  | _ => return checked definition

/-- Writes the sample into a directory. -/
def writeSample {m : Type → Type} [Monad m] (files : FileAccess m) (directory : String) :
    m Outcome := do
  let path := joinPath directory defaultFile
  if ← files.isThere path then return .failed (.alreadyThere path)
  match ← files.makeDirectories directory with
  | .error fault => return .failed (.notMade directory fault)
  | .ok () =>
    match ← files.write path Definition.sampleText with
    | .error fault => return .failed (.notWritten path fault)
    | .ok () =>
      return { output :=
        "Initialized odata4rs service at " ++ directory ++ "\n  Created: " ++ path ++ "\n" }

/-- Carries out a command on a definition in a file. -/
def onFile {m : Type → Type} [Monad m] (files : FileAccess m) (command : Command) (path : String) :
    m Outcome := do
  match ← files.read path with
  | .error fault => return .failed (.notRead path fault)
  | .ok text => return .ofExcept (command.respond text)

/-- Carries out a command. -/
def run {m : Type → Type} [Monad m] (files : FileAccess m) (command : Command) : m Outcome :=
  match command with
  | .init directory => writeSample files directory
  | .validate file | .metadata file _ | .get file _ => onFile files command file
  | .schema => return .line Definition.schema.pretty
  | .completions _ => return { output := String.join (root.verbs.map (· ++ "\n")) }

end Command

end OData.CommandLine
