import Shapewright.Command.Basic
import Shapewright.Command.Switch

/-!
# Reading command lines

The words behind a verb are read one after the other. A switch that takes values
waits for them, and is settled when the next switch or the end of the line shows
that it has them all; what is wrong with a switch is reported only then, so that
a word that nothing takes goes before it.

Main definitions:

* `Usage` — why a command line is no command.
* `Reading.step`, `Reading.settle` — taking one word.
* `Command.ofWords` — the command that words are.
-/

namespace Shapewright.CommandLine

/-- Why a command line is no command. The last three are answered with a text
about the program. -/
inductive Usage where
  | unknownArgument
  | unknownVerb
  | missingArgument
  | invalidValue
  | tooManyValues
  | conflict
  | help
  | version
  | helpOnNothing
  deriving Repr, DecidableEq, Inhabited

/-! ## Words -/

/-- What a word is by its hyphens. -/
inductive Word where
  /-- Two hyphens alone: no switches follow. -/
  | escape
  | long (name : String) (value? : Option String)
  | short (letter : Char) (rest : List Char)
  | plain
  deriving Repr, DecidableEq, Inhabited

/-- A name and what stands behind an equals sign. -/
def longWord (cs : List Char) : Word :=
  let name := String.ofList (cs.takeWhile (· != '='))
  match cs.dropWhile (· != '=') with
  | [] => .long name none
  | _ :: value => .long name (some (String.ofList value))

def Word.ofString (s : String) : Word :=
  match s.toList with
  | ['-', '-'] => .escape
  | '-' :: '-' :: cs => longWord cs
  | '-' :: c :: cs => .short c cs
  | _ => .plain

/-- The value that follows a letter at once, with or without an equals sign. -/
def attached? : List Char → Option String
  | [] => none
  | '=' :: cs => some (String.ofList cs)
  | cs => some (String.ofList cs)

/-! ## Switches and their values -/

/-- A switch that may still get values. -/
structure Pending where
  switch : Switch
  values : List String
  /-- Whether the next word is a value. -/
  isOpen : Bool
  deriving Repr, DecidableEq, Inhabited

/-- What has been read: the settled switches with their values, the switch that
is waiting, and the words that are neither. -/
structure Reading where
  given : List (Switch × List String) := []
  pending? : Option Pending := none
  names : List String := []
  /-- Whether no more switches follow. -/
  onlyNames : Bool := false
  deriving Repr, DecidableEq, Inhabited

namespace Reading

/-- Add a switch with all its values. -/
def record (r : Reading) (s : Switch) (values : List String) : Except Usage Reading :=
  if !s.isFlag && values.isEmpty then .error .invalidValue
  else if !s.repeats && r.given.any (·.1 == s) then .error .conflict
  else if s.takesPath && values.contains "" then .error .invalidValue
  else .ok { r with given := r.given ++ [(s, values)] }

/-- Settle the switch that is waiting. -/
def settle (r : Reading) : Except Usage Reading :=
  match r.pending? with
  | none => .ok r
  | some p => { r with pending? := none }.record p.switch p.values

/-- Begin a switch. A value that is attached to it is its only one. -/
def begin (r : Reading) (s : Switch) (value? : Option String) : Except Usage Reading :=
  match s.isFlag, value? with
  | true, some _ => .error .tooManyValues
  | true, none => do (← r.settle).record s []
  | false, some value => do (← r.settle).record s [value]
  | false, none => do
    let r ← r.settle
    pure { r with pending? := some ⟨s, [], true⟩ }

/-- Take a word that is no value. -/
def addName (verb : Verb) (r : Reading) (word : String) : Except Usage Reading :=
  if verb.takesName && r.names.isEmpty then .ok { r with names := [word] }
  else .error .unknownArgument

/-- Take a word without hyphens: a value of the switch that is waiting for one. -/
def addWord (verb : Verb) (r : Reading) (word : String) : Except Usage Reading :=
  match r.pending? with
  | some ⟨s, values, true⟩ =>
    .ok { r with pending? := some ⟨s, values ++ [word], s.takesMany⟩ }
  | _ => addName verb r word

/-- A request for help is granted when what precedes it is in order. -/
def askHelp (r : Reading) : Except Usage Reading := do
  let _ ← r.settle
  .error .help

/-- Take one word. -/
def step (verb : Verb) (r : Reading) (word : String) : Except Usage Reading :=
  if r.onlyNames then addName verb r word
  else
    match Word.ofString word with
    | .escape => .ok { r with onlyNames := true }
    | .plain => addWord verb r word
    -- a known switch takes the word, and only then is `help` looked at
    | .long name value? =>
      match verb.switches.find? (·.name == name) with
      | some s => r.begin s value?
      | none =>
        if name == "help" then
          if value?.isSome then .error .tooManyValues else askHelp r
        else .error .unknownArgument
    | .short letter rest =>
      match verb.switches.find? (·.letter? == some letter) with
      | some s => r.begin s (attached? rest)
      | none => if letter == 'h' then askHelp r else .error .unknownArgument

/-- Take all words behind a verb. -/
def ofWords (verb : Verb) (words : List String) : Except Usage Reading := do
  (← words.foldlM (step verb) {}).settle

/-- The values of a switch in order. -/
def values (r : Reading) (s : Switch) : List String :=
  r.given.flatMap fun (other, values) => if other == s then values else []

def value? (r : Reading) (s : Switch) : Option String := (r.values s).head?

def has (r : Reading) (s : Switch) : Bool := r.given.any (·.1 == s)

def selection (r : Reading) : Selection :=
  { inputs := r.values .input
    pointer? := r.value? .jsonPointer
    filter? := r.value? .jqExpr }

/-- Where declarations go; there is only one place. -/
def destination (r : Reading) : Except Usage Destination :=
  match r.value? .out, r.value? .outDir with
  | some _, some _ => .error .conflict
  | some path, none => .ok (.file path)
  | none, some path => .ok (.directory path)
  | none, none => .ok .console

/-- The root type has this name unless another is given. -/
def defaultRootName : String := "Root"

/-- The command that a reading is. -/
def command (verb : Verb) (r : Reading) : Except Usage Command :=
  match verb with
  | .targets => .ok .targets
  | .checkName =>
    match r.names with
    | name :: _ => .ok (.checkName name)
    | [] => .error .missingArgument
  | .schema =>
    if r.has .input then .ok (.schema r.selection (r.value? .out))
    else .error .missingArgument
  | .generate =>
    match r.destination, r.value? .target with
    -- a conflict of places is reported before anything is missed
    | .error e, _ => .error e
    | .ok _, none => .error .missingArgument
    | .ok destination, some target =>
      if r.has .input then
        .ok (.generate
          { selection := r.selection
            target
            rootName := (r.value? .rootType).getD defaultRootName
            pairs := r.values .option
            optionsFile? := r.value? .optionsFile
            multipleFiles := r.has .multipleFiles
            destination })
      else .error .missingArgument

end Reading

/-! ## Whole lines -/

/-- The word that asks for help on a command. -/
def helpWord : String := "help"

/-- The answer to a request for help on commands. -/
def helpOn : List String → Usage
  | [] => .help
  | [word] => if word == helpWord || (Verb.parse? word).isSome then .help else .unknownVerb
  | _ => .unknownVerb

/-- The answer to words behind two hyphens, where no verb is taken. -/
def withoutVerb : List String → Usage
  | [] => .helpOnNothing
  | word :: _ =>
    if word == helpWord || (Verb.parse? word).isSome then .unknownArgument else .unknownVerb

/-- The answer to a switch in front of the verb. -/
def ownSwitch (answer : Usage) (value? : Option String) : Usage :=
  if value?.isSome then .tooManyValues else answer

end Shapewright.CommandLine

namespace Shapewright

open CommandLine

/-- The command that words are. -/
def Command.ofWords : List String → Except Usage Command
  | [] => .error .helpOnNothing
  | word :: rest =>
    match Word.ofString word with
    | .escape => .error (withoutVerb rest)
    | .long "help" value? => .error (ownSwitch .help value?)
    | .long "version" value? => .error (ownSwitch .version value?)
    | .long _ _ => .error .unknownArgument
    | .short 'h' _ => .error .help
    | .short 'V' _ => .error .version
    | .short _ _ => .error .unknownArgument
    | .plain =>
      match Verb.parse? word with
      | some verb => do (← Reading.ofWords verb rest).command verb
      | none => .error (if word == helpWord then helpOn rest else .unknownVerb)

end Shapewright
