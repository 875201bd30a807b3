import PhraseVault.Command.Basic

/-!
# Arguments of the command line

A request is a command with its options. The two options about files may also be given before the
command, and stand in a variable of the environment when they are not given at all. A value follows
its option as the next argument or after an equals sign.
-/
namespace PhraseVault.Command

inductive Flag where
  | config
  | dataDir
  | owner
  | yes
  | help
  | version
  deriving DecidableEq

namespace Flag

def ofName? : String → Option Flag
  | "config" => some config
  | "data-dir" => some dataDir
  | "owner" => some owner
  | "yes" => some yes
  | "help" => some help
  | "version" => some version
  | _ => none

def usage : Flag → String
  | config => "--config <CONFIG>"
  | dataDir => "--data-dir <DATA_DIR>"
  | owner => "--owner <OWNER>"
  | yes => "--yes"
  | help => "--help"
  | version => "--version"

end Flag

inductive Verb where
  | status
  | setPassword
  | verify
  | changePassword
  | sealPhrase
  | reveal
  | list
  | remove
  | wipe
  deriving DecidableEq

namespace Verb

def ofName? : String → Option Verb
  | "status" => some status
  | "set-password" => some setPassword
  | "verify" => some verify
  | "change-password" => some changePassword
  | "seal" => some sealPhrase
  | "reveal" => some reveal
  | "list" => some list
  | "remove" => some remove
  | "wipe" => some wipe
  | _ => none

def takesOwner : Verb → Bool
  | sealPhrase | reveal | remove => true
  | _ => false

end Verb

/-- Whether an option may stand after a command, or before any. -/
def Flag.fits : Flag → Option Verb → Bool
  | config, _ | dataDir, _ | help, _ => true
  | version, verb => verb.isNone
  | owner, verb => verb.any Verb.takesOwner
  | yes, verb => verb == some .wipe

inductive UsageFault where
  | noCommand
  | unknownCommand (name : String)
  | unexpected (argument : String)
  | missingValue (flag : Flag)
  | emptyValue (flag : Flag)
  | unwantedValue (flag : Flag)
  | repeated (flag : Flag)
  | missing (flag : Flag)
  deriving DecidableEq

def UsageFault.message : UsageFault → String
  | noCommand => "a command is required"
  | unknownCommand name => s!"unrecognized command '{name}'"
  | unexpected argument => s!"unexpected argument '{argument}'"
  | missingValue f => s!"'{f.usage}' needs a value"
  | emptyValue f => s!"the value of '{f.usage}' is empty"
  | unwantedValue f => s!"'{f.usage}' takes no value"
  | repeated f => s!"'{f.usage}' is given more than once"
  | missing f => s!"'{f.usage}' is required"

/-- What an argument looks like. A single hyphen is an ordinary text. -/
inductive Argument where
  | text (s : String)
  | long (name : String) (value : Option String)
  | short (letter : Char)
  | terminator
  deriving DecidableEq

/-- Splits a text at its first equals sign. -/
def Argument.splitValue (cs : List Char) : String × Option String :=
  let name := cs.takeWhile (· ≠ '=')
  let value := match cs.dropWhile (· ≠ '=') with
    | _ :: v => some (String.ofList v)
    | [] => none
  (String.ofList name, value)

def Argument.ofString (s : String) : Argument :=
  match s.toList with
  | ['-', '-'] => .terminator
  | '-' :: '-' :: cs =>
    let (name, value) := splitValue cs
    .long name value
  | '-' :: c :: _ => .short c
  | _ => .text s

/-- What has been given at one place: before the command or after it. -/
structure Given where
  config : Option String
  dataDir : Option String
  owner : Option String
  confirmed : Bool

namespace Given

def nothing : Given := ⟨none, none, none, false⟩

def once (f : Flag) (old : Option String) (value : String) : Except UsageFault (Option String) :=
  if old.isSome then .error (.repeated f) else .ok (some value)

/-- A path is not empty. -/
def oncePath (f : Flag) (old : Option String) (value : String) :
    Except UsageFault (Option String) :=
  if value = "" then .error (.emptyValue f) else once f old value

/-- Takes the value of an option. -/
def take (g : Given) (f : Flag) (value : String) : Except UsageFault Given :=
  match f with
  | .config => do return { g with config := ← oncePath f g.config value }
  | .dataDir => do return { g with dataDir := ← oncePath f g.dataDir value }
  | .owner => do return { g with owner := ← once f g.owner value }
  | _ => .error (.unwantedValue f)

def confirm (g : Given) : Except UsageFault Given :=
  if g.confirmed then .error (.repeated .yes) else .ok { g with confirmed := true }

end Given

/-- The variables of the environment that stand in for options. -/
structure Fallbacks where
  config : Option Path
  dataDir : Option Path

structure Options where
  config : Option Path
  dataDir : Option Path
  deriving DecidableEq

inductive Request where
  | help
  | version
  | run (options : Options) (command : Command)
  deriving DecidableEq

/-- What is given after the command counts before what is given ahead of it, and both before the
variable. The variable is looked at wherever the option is not given, and then may not be empty. -/
def choosePath (f : Flag) (standIn : Option Path) (ahead after : Option String) :
    Except UsageFault (Option Path) :=
  if (ahead.isNone || after.isNone) && standIn == some [] then .error (.emptyValue f)
  else .ok (((after <|> ahead).map Utf8.encode) <|> standIn)

def ownerOf (g : Given) : Except UsageFault String :=
  match g.owner with
  | some o => .ok o
  | none => .error (.missing .owner)

def commandOf (verb : Verb) (g : Given) : Except UsageFault Command :=
  match verb with
  | .status => .ok .status
  | .setPassword => .ok .setPassword
  | .verify => .ok .verify
  | .changePassword => .ok .changePassword
  | .sealPhrase => .ok (.sealPhrase g.owner)
  | .reveal => do return .reveal (← ownerOf g)
  | .list => .ok .list
  | .remove => do return .remove (← ownerOf g)
  | .wipe => .ok (.wipe g.confirmed)

def requestOf (fallbacks : Fallbacks) (ahead : Given) (verb : Option Verb) (given : Given) :
    Except UsageFault Request :=
  match verb with
  | none => .error .noCommand
  | some verb => do
    let config ← choosePath .config fallbacks.config ahead.config given.config
    let dataDir ← choosePath .dataDir fallbacks.dataDir ahead.dataDir given.dataDir
    return .run ⟨config, dataDir⟩ (← commandOf verb given)

/-- The help that is asked for by name is that of the program or of one command. -/
def helpOn : List String → Except UsageFault Request
  | [] => .ok .help
  | name :: rest =>
    if name = "help" ∨ (Verb.ofName? name).isSome then
      match rest with
      | [] => .ok .help
      | s :: _ => .error (.unknownCommand s)
    else .error (.unknownCommand name)

/-- Reads arguments from left to right; `pending` is an option that still waits for its value. Help
and version are answered as soon as they are met. -/
def readFrom (fallbacks : Fallbacks) (ahead : Given) (verb : Option Verb) (given : Given)
    (pending : Option Flag) : List String → Except UsageFault Request
  | [] =>
    match pending with
    | some f => .error (.missingValue f)
    | none => requestOf fallbacks ahead verb given
  | a :: rest =>
    match pending, Argument.ofString a, verb with
    | some f, .text value, verb => do
      readFrom fallbacks ahead verb (← given.take f value) none rest
    | some f, _, _ => .error (.missingValue f)
    | none, .text name, none =>
      if name = "help" then helpOn rest
      else match Verb.ofName? name with
        | some verb => readFrom fallbacks given (some verb) .nothing none rest
        | none => .error (.unknownCommand name)
    | none, .text s, some _ => .error (.unexpected s)
    | none, .terminator, verb =>
      match rest with
      | [] => requestOf fallbacks ahead verb given
      | s :: _ => .error (.unexpected s)
    | none, .short c, verb =>
      if c = 'h' then .ok .help
      else if c = 'V' ∧ verb = none then .ok .version
      else .error (.unexpected a)
    | none, .long name value, verb =>
      match (Flag.ofName? name).filter (·.fits verb), value with
      | none, _ => .error (.unexpected a)
      | some .help, none => .ok .help
      | some .version, none => .ok .version
      | some .yes, none => do readFrom fallbacks ahead verb (← given.confirm) none rest
      | some f, some value => do readFrom fallbacks ahead verb (← given.take f value) none rest
      | some f, none => readFrom fallbacks ahead verb given (some f) rest

def readArguments (fallbacks : Fallbacks) (args : List String) : Except UsageFault Request :=
  readFrom fallbacks .nothing none .nothing none args

end PhraseVault.Command
