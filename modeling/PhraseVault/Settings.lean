import PhraseVault.Store.Basic
import PhraseVault.Store.Path
import PhraseVault.Text.Utf8
import PhraseVault.Toml.Table

/-!
# Settings

Where the records are kept and what is logged. Settings are written as a document of two lines; what
a document leaves out keeps its default, and what it says beyond them is ignored.
-/
namespace PhraseVault

/-- The variables that say where a user's files are, and the home directory of the account. -/
structure Environment where
  home : Option Path
  dataHome : Option Path
  configHome : Option Path
  accountHome : Option Path

namespace Environment

def homeDirectory (e : Environment) : Option Path :=
  match e.home with
  | some (b :: bs) => some (b :: bs)
  | _ => e.accountHome

/-- The directory a variable names, if it is absolute, or else one in the home directory. -/
def directory (e : Environment) (named : Option Path) (inHome : String) : Option Path :=
  match named.filter Path.isAbsolute with
  | some p => some p
  | none => e.homeDirectory.map fun h => Path.join h (Utf8.encode inHome)

def dataDirectory (e : Environment) : Option Path := e.directory e.dataHome ".local/share"

def configDirectory (e : Environment) : Option Path := e.directory e.configHome ".config"

end Environment

structure Settings where
  dataDir : Path
  logLevel : String
  deriving DecidableEq

namespace Settings

def appDirectory : Path := Utf8.encode "seed-vault"

def fileName : Path := Utf8.encode "config.toml"

def default (e : Environment) : Settings :=
  ⟨Path.join (e.dataDirectory.getD (Utf8.encode ".")) appDirectory, "warn"⟩

/-- Where settings are looked for when no file is named. -/
def defaultPath (e : Environment) : Option Path :=
  e.configDirectory.map fun d => Path.join (Path.join d appDirectory) fileName

inductive Fault where
  | io (fault : IoFault)
  | malformed
  | pathNotText
  deriving DecidableEq

def Fault.message : Fault → String
  | .io f => s!"io error: {f.message}"
  | .malformed => "config error: TOML parse error"
  | .pathNotText => "config error: path contains invalid UTF-8 characters"

/-- A setting of a document: missing, or a text. -/
def setting (t : Toml.Table) (k : String) : Except Fault (Option String) :=
  match t.find? k with
  | none => .ok none
  | some (.value (.text s)) => .ok (some s)
  | some _ => .error .malformed

def ofDocument (base : Settings) (document : String) : Except Fault Settings :=
  match Toml.read document with
  | none => .error .malformed
  | some t => do
    let dataDir ← setting t "data_dir"
    let logLevel ← setting t "log_level"
    return ⟨(dataDir.map Utf8.encode).getD base.dataDir, logLevel.getD base.logLevel⟩

def writeSetting (k v : String) : List Char :=
  k.toList ++ ' ' :: '=' :: ' ' :: Toml.writeText v ++ ['\n']

def toDocument (s : Settings) : Except Fault String :=
  match Utf8.decode s.dataDir with
  | .error _ => .error .pathNotText
  | .ok d => .ok (String.ofList (writeSetting "data_dir" d ++ writeSetting "log_level" s.logLevel))

/-- Settings from what reading a path gives; nothing there means the defaults. -/
def load (base : Settings) (found : Option (Except IoFault Bytes)) : Except Fault Settings :=
  match found with
  | none => .ok base
  | some (.error f) => .error (.io f)
  | some (.ok content) =>
    match Utf8.decode content with
    | .error _ => .error (.io .notText)
    | .ok document => ofDocument base document

end Settings
end PhraseVault
