/-
The words of a command line.

A command line names a verb, with options before and behind it.  An option has a long name, perhaps
a short one, and takes a value or none; the value stands behind an equals sign, directly behind a
short name, or is the next word.  Two dashes end the options.  What is wrong with the words is found
from left to right; what is missing shows at the end, behind the verb first.

* `CommandLine.Usage` — why words are no command;
* `CommandLine.Slot`, `CommandLine.Grammar` — what can be given, and what a verb takes;
* `CommandLine.State`, `CommandLine.readWords` — reading words;
* `CommandLine.Command`, `CommandLine.Command.ofWords` — the commands.
-/

set_option relaxedAutoImplicit false
set_option autoImplicit false

namespace OData.CommandLine

/-- Why words are no command to carry out. -/
inductive Usage where
  | helpAsked
  | versionAsked
  /-- There are no words at all. -/
  | nothingGiven
  | missingVerb
  | unknownVerb
  /-- An option that does not exist here, or a word too many. -/
  | unknownWord
  /-- A value that cannot be, or none where one is needed. -/
  | badValue
  /-- A value for an option that takes none. -/
  | valueTooMany
  /-- An option that is given twice. -/
  | repeated
  /-- A word that is needed is missing. -/
  | missingWord
deriving DecidableEq, Repr

/-! ### What can be given -/

/-- What words can give. -/
inductive Slot where
  | help
  | version
  | logLevel
  | file
  | etag
  | directory
  | url
  | shell
deriving DecidableEq, Repr

/-- The shells that words can be completed for. -/
def shells : List String := ["bash", "elvish", "fish", "powershell", "zsh"]

/-- Whether a slot takes a value. -/
def Slot.takesValue : Slot → Bool
  | help | version | etag => false
  | logLevel | file | directory | url | shell => true

/-- Whether a slot may have a value. -/
def Slot.accepts : Slot → String → Bool
  | file, value | directory, value => !value.isEmpty
  | shell, value => shells.contains value
  | _, _ => true

/-- An option. -/
structure Choice where
  long : String
  short : Option Char := none
  slot : Slot

/-- What words can be given in one place: before the verb, or behind it. -/
structure Grammar where
  choices : List Choice
  /-- The slot of a word that is no option. -/
  word : Option Slot := none
  /-- Whether that word is needed. -/
  needsWord : Bool := false
  /-- The verbs that may follow. -/
  verbs : List String := []

/-- The options that can be given everywhere. -/
def commonChoices : List Choice :=
  [⟨"log-level", none, .logLevel⟩, ⟨"help", some 'h', .help⟩]

/-- The option for a file. -/
def fileChoice : Choice := ⟨"file", some 'f', .file⟩

/-- What can be given behind each verb. -/
def verbs : List (String × Grammar) :=
  [("init", { choices := commonChoices, word := some .directory }),
    ("validate", { choices := fileChoice :: commonChoices }),
    ("metadata", { choices := fileChoice :: ⟨"etag", none, .etag⟩ :: commonChoices }),
    ("get",
      { choices := fileChoice :: commonChoices, word := some .url, needsWord := true }),
    ("schema", { choices := commonChoices }),
    ("completions", { choices := commonChoices, word := some .shell, needsWord := true })]

/-- The verb that asks for help. -/
def helpVerb : String := "help"

/-- What can be given before the verb. -/
def root : Grammar where
  choices := ⟨"version", some 'V', .version⟩ :: commonChoices
  verbs := verbs.map Prod.fst ++ [helpVerb]

namespace Grammar

/-- The option of a long name. -/
def long? (grammar : Grammar) (name : String) : Option Choice :=
  grammar.choices.find? (·.long == name)

/-- The option of a short name. -/
def short? (grammar : Grammar) (name : Char) : Option Choice :=
  grammar.choices.find? (·.short == some name)

end Grammar

/-! ### Reading words -/

/-- What the words so far give. -/
structure State where
  /-- The slots that are filled. -/
  given : List (Slot × String) := []
  /-- A slot whose value has still to be looked at, perhaps before it is there. -/
  pending : Option (Slot × Option String) := none
  /-- Whether the next word is the value of an option. -/
  awaitsValue : Bool := false
  /-- Whether the options have ended. -/
  optionsEnded : Bool := false
  /-- Whether the word that is no option was given. -/
  hasWord : Bool := false

namespace State

/-- The value of a slot. -/
def value? (s : State) (slot : Slot) : Option String := s.given.lookup slot

/-- Fills a slot. -/
def fill (s : State) (slot : Slot) (value : Option String) : Except Usage State :=
  if slot.takesValue && value.isNone then .error .badValue
  else if slot = .help then .error .helpAsked
  else if slot = .version then .error .versionAsked
  else if (s.value? slot).isSome then .error .repeated
  else if value.any fun value => !slot.accepts value then .error .badValue
  else .ok { s with given := (slot, value.getD "") :: s.given }

/-- Fills the slot whose value has still to be looked at. -/
def settle (s : State) : Except Usage State :=
  match s.pending with
  | none => .ok s
  | some (slot, value) => { s with pending := none }.fill slot value

/-- An option that has its value with it, or that takes none. -/
def take (s : State) (slot : Slot) (value : Option String) : Except Usage State := do
  let s ← (← s.settle).fill slot value
  return { s with awaitsValue := false }

/-- An option whose value is the next word. -/
def await (s : State) (slot : Slot) : Except Usage State := do
  return { ← s.settle with pending := some (slot, none), awaitsValue := true }

/-- The value that an option waits for. -/
def receive (s : State) (value : String) : State :=
  { s with pending := s.pending.map fun (slot, _) => (slot, some value), awaitsValue := false }

end State

/-- A text before an equals sign, and what stands behind that. -/
def splitEquals (cs : List Char) : List Char × Option String :=
  let name := cs.takeWhile (· != '=')
  match cs.drop name.length with
  | _ :: value => (name, some (String.ofList value))
  | [] => (name, none)

/-- Reads a long option. -/
def readLong (grammar : Grammar) (s : State) (cs : List Char) : Except Usage State :=
  let (name, value) := splitEquals cs
  match grammar.long? (String.ofList name) with
  | none => .error .unknownWord
  | some choice =>
    if choice.slot.takesValue then
      match value with
      | some value => s.take choice.slot (some value)
      | none => s.await choice.slot
    else if value.isSome then .error .valueTooMany
    else s.take choice.slot none

/-- Reads short options in a row; the first that takes a value ends the row. -/
def readShort (grammar : Grammar) (s : State) : List Char → Except Usage State
  | [] => .ok s
  | name :: rest =>
    match grammar.short? name with
    | none => .error .unknownWord
    | some choice =>
      if choice.slot.takesValue then
        match rest with
        | [] => s.await choice.slot
        | '=' :: value => s.take choice.slot (some (String.ofList value))
        | value => s.take choice.slot (some (String.ofList value))
      else do
        let s ← s.take choice.slot none
        readShort grammar s rest

/-- Reads a word that is no option. -/
def readWord (grammar : Grammar) (s : State) (word : String) : Except Usage State :=
  match if s.hasWord then none else grammar.word with
  | some slot => do
    return { ← s.settle with pending := some (slot, some word), hasWord := true }
  | none =>
    if grammar.verbs.isEmpty || (s.optionsEnded && grammar.verbs.contains word) then
      .error .unknownWord
    else .error .unknownVerb

/-- Reads a word before the options end. -/
def readAny (grammar : Grammar) (s : State) (word : String) : Except Usage State :=
  match word.toList with
  | ['-', '-'] => .ok { s with optionsEnded := true }
  | '-' :: '-' :: option => readLong grammar s option
  | '-' :: name :: rest => readShort grammar s (name :: rest)
  | _ => if s.awaitsValue then .ok (s.receive word) else readWord grammar s word

/-- Reads words up to a verb, if there is one; with it come the words behind it. -/
def readWords (grammar : Grammar) (s : State) :
    List String → Except Usage (State × Option (String × List String))
  | [] => .ok (s, none)
  | word :: rest =>
    if s.optionsEnded then do
      let s ← readWord grammar s word
      readWords grammar s rest
    else if !s.awaitsValue && grammar.verbs.contains word then .ok (s, some (word, rest))
    else do
      let s ← readAny grammar s word
      readWords grammar s rest

/-! ### Commands -/

/-- A command. -/
inductive Command where
  /-- Writes a sample definition into a directory. -/
  | init (directory : String)
  /-- Checks a definition. -/
  | validate (file : String)
  /-- Prints the metadata of a service, or only the tag of them. -/
  | metadata (file : String) (tagOnly : Bool)
  /-- Answers one request. -/
  | get (file : String) (url : String)
  /-- Prints the schema of definitions. -/
  | schema
  /-- Prints the verbs, for a shell to complete. -/
  | completions (shell : String)
deriving DecidableEq, Repr

namespace Command

/-- The definition file that is read unless another one is given. -/
def defaultFile : String := "service.yaml"

/-- The command of a verb with what was given behind it. -/
def ofState (verb : String) (s : State) : Command :=
  let file := (s.value? .file).getD defaultFile
  match verb with
  | "init" => .init ((s.value? .directory).getD ".")
  | "validate" => .validate file
  | "metadata" => .metadata file (s.value? .etag).isSome
  | "get" => .get file ((s.value? .url).getD "")
  | "completions" => .completions ((s.value? .shell).getD "")
  | _ => .schema

/-- The command of a verb and the words behind it. -/
def ofVerb (verb : String) (grammar : Grammar) (words : List String) : Except Usage Command := do
  let (s, _) ← readWords grammar {} words
  let s ← s.settle
  if grammar.needsWord && !s.hasWord then throw .missingWord
  return ofState verb s

/-- Help for a verb, for that about help, or in general. -/
def help (words : List String) : Usage :=
  match words with
  | [] => .helpAsked
  | [verb] => if root.verbs.contains verb then .helpAsked else .unknownVerb
  | _ => .unknownVerb

/-- The command that some words give. -/
def ofWords (words : List String) : Except Usage Command := do
  let (s, verb?) ← readWords root {} words
  match verb? with
  | some (verb, rest) =>
    match verbs.lookup verb with
    | none => throw (help rest)
    | some grammar =>
      let command ← ofVerb verb grammar rest
      let _ ← s.settle
      return command
  | none =>
    let s ← s.settle
    throw (if s.given.isEmpty then .nothingGiven else .missingVerb)

end Command

end OData.CommandLine
