import PhraseVault.Command.Arguments
import PhraseVault.Command.Dialogue
import PhraseVault.Log.Filter
import PhraseVault.Store.File

/-!
# Invocations

One run of the program: it reads its arguments and settings, carries out the command over the
records of one directory, and reports. It ends with 0 if the command was carried out, with 1 if it
failed and with 2 if the arguments ask for no command.
-/
namespace PhraseVault.Command

/-- The surroundings of a run besides its files. -/
structure Surroundings where
  fallbacks : Fallbacks
  /-- The variable that takes the place of the settings' log filter. -/
  logFilter : Option String
  environment : Environment

/-- What a run leaves at the terminal. -/
structure Report where
  exitCode : Nat
  output : List String
  diagnostics : List String

def versionLine : String := "seed-vault 0.0.1"

def helpLines : List String :=
  ["Usage: seed-vault [--config <CONFIG>] [--data-dir <DATA_DIR>] <COMMAND>", "",
    "Commands: status, set-password, verify, change-password, seal [--owner <OWNER>],",
    "          reveal --owner <OWNER>, list, remove --owner <OWNER>, wipe [--yes]"]

/-- Where the settings of a run are looked for. -/
def settingsPath (s : Surroundings) (o : Options) : Option Path :=
  o.config <|> Settings.defaultPath s.environment

/-- The settings of a run, from what reading its settings path gives. -/
def settings (s : Surroundings) (o : Options) (found : Option (Except IoFault Bytes)) :
    Except Failure Settings := do
  let loaded ← (Settings.load (.default s.environment) found).mapError .settings
  return { loaded with dataDir := o.dataDir.getD loaded.dataDir }

def filterOf (s : Surroundings) (settings : Settings) : LogFilter.Reading :=
  LogFilter.read (s.logFilter.getD settings.logLevel)

def logLines (r : LogFilter.Reading) (events : List Vault.Event) : List String :=
  r.objections.map (fun o => s!"warning: {o}, ignoring it") ++
    (events.filter r.filter.passes).map Vault.Event.line

/-- A session over the store that the settings name. -/
def session {σ : Type} (settings : Settings) (store : σ) (entropy : Entropy) (ids : List String) :
    Vault.Session σ :=
  ⟨store, entropy, ids, [.usingDirectory (Utf8.decodeLossy settings.dataDir)]⟩

def reportOf (r : LogFilter.Reading) (events : List Vault.Event) :
    Except Failure (List String) → Report
  | .ok lines => ⟨0, lines, logLines r events⟩
  | .error f => ⟨1, [], logLines r events ++ [f.report]⟩

def usageReport (f : UsageFault) : Report := ⟨2, [], [s!"error: {f.message}"]⟩

def failureReport (f : Failure) : Report := ⟨1, [], [f.report]⟩

def helpReport : Report := ⟨0, helpLines, []⟩

def versionReport : Report := ⟨0, [versionLine], []⟩

/-- The files of a run, and what is random in it. -/
structure World where
  files : FileSystem
  entropy : Entropy
  ids : List String

/-- A run over a file system, with the lines that are typed in it. -/
def invoke (s : Surroundings) (args lines : List String) (w : World) : Report × World :=
  match readArguments s.fallbacks args with
  | .error f => (usageReport f, w)
  | .ok .help => (helpReport, w)
  | .ok .version => (versionReport, w)
  | .ok (.run options command) =>
    match settings s options ((settingsPath s options).bind w.files.content?) with
    | .error f => (failureReport f, w)
    | .ok settings =>
      let (r, e) := command.outcome lines
        (session settings (FileStore.mk settings.dataDir w.files) w.entropy w.ids)
      (reportOf (filterOf s settings) e.log r, ⟨e.store.files, e.entropy, e.ids⟩)

end PhraseVault.Command
