import Std.Time.DateTime.Timestamp
import PhraseVault.Command.Invocation
import PhraseVault.OwnerId

/-!
# The program

Reads the settings and the directory of the records, carries one command out over them, and then
makes on the disk, in their order, the changes it has asked for.
-/
namespace PhraseVault.Main
open Command

/-- One change to the files of a directory. -/
inductive Change where
  | step (s : FileStore.Step)
  | remove (name : Bytes)

/-- A store and the changes made to it since it was read. -/
structure Journal where
  store : FileStore
  changes : List Change

instance : RecordStore Journal where
  get key j := (FileStore.get key j.store, j)
  set key value j :=
    let (r, store) := FileStore.set key value j.store
    (r, ⟨store, j.changes ++ (FileStore.setSteps key value).map .step⟩)
  delete key j :=
    let (r, store) := FileStore.delete key j.store
    (r, ⟨store, j.changes ++ [.remove (FileStore.fileName key)]⟩)
  keys j := (FileStore.keys j.store, j)

def readable (p : Path) : String := Utf8.decodeLossy p

def setting (name : String) : IO (Option Path) := do return (← IO.getEnv name).map Utf8.encode

def surroundings : IO Surroundings := do
  return ⟨⟨← setting "SEED_VAULT_CONFIG", ← setting "SEED_VAULT_DATA_DIR"⟩,
    ← IO.getEnv "RUST_LOG",
    ⟨← setting "HOME", ← setting "XDG_DATA_HOME", ← setting "XDG_CONFIG_HOME", none⟩⟩

/-- What reading a path gives; what is there and cannot be read counts as a directory. -/
def content? (p : Path) : IO (Option (Except IoFault Bytes)) := do
  match ← (IO.FS.readBinFile (readable p)).toBaseIO with
  | .ok content => return some (.ok content.toList)
  | .error (.noFileOrDirectory ..) => return none
  | .error _ => return some (.error .isDirectory)

/-- Adds what stands at a path to the files read so far. -/
def readInto (fs : FileSystem) (p : Path) : IO FileSystem := do
  match ← content? p with
  | none => return fs
  | some (.ok content) => return (fs.placeFile p content).2
  | some (.error _) => return (fs.makeDirectories p).2

/-- The directory of the records and all that is in it. -/
def readStore (root : Path) : IO FileStore := do
  let fs ← readInto (.bare []) root
  if !fs.holdsDirectory root then return ⟨root, fs⟩
  let found ← IO.FS.realPath (readable root)
  let names := (← found.readDir).toList.map fun e => Utf8.encode e.fileName
  return ⟨root, ← names.foldlM (fun fs name => readInto fs (root.join name)) fs⟩

/-- Lets only the owner of a file read and write it. -/
def restrict (p : Path) (execution : Bool) : IO Unit :=
  IO.setAccessRights (readable p) ⟨⟨true, true, execution⟩, {}, {}⟩

def write (p : Path) (content : Bytes) : IO Unit :=
  IO.FS.writeBinFile (readable p) ⟨content.toArray⟩

def apply (root : Path) : Change → IO Unit
  | .step .create => do
    if (← content? root).isNone then
      IO.FS.createDirAll (readable root)
      restrict root true
  | .step (.clear name) => do
    write (root.join name) []
    restrict (root.join name) false
  | .step (.write name content) => write (root.join name) content
  | .step (.rename source target) =>
    IO.FS.rename (readable (root.join source)) (readable (root.join target))
  | .remove name => do
    if (← content? (root.join name)).isSome then IO.FS.removeFile (readable (root.join name))

/-- As many random bytes as a command can draw over a directory with so many entries: two salts,
and a vector for every phrase. -/
def entropy (entries : Nat) : IO Entropy := do
  let count := 2 * Entropy.saltLength + (entries + 1) * Iv.freshLength
  let bytes ← IO.getRandomBytes count.toUSize
  return ⟨fun i => bytes.data.getD i 0, 0⟩

def ownerId : IO String := do
  let now ← Std.Time.Timestamp.now
  return OwnerId.mint now.toMillisecondsSinceUnixEpoch.toInt.toNat (← IO.rand 0 999999)

/-- Puts the questions of a dialogue to whoever is at the terminal. -/
def converse {α : Type} : Dialogue α → IO α
  | .finished a => return a
  | .ask question next => do
    (← IO.getStderr).putStr question
    let line ← (← IO.getStdin).getLine
    converse (next (if line.isEmpty then none else some (line.dropEndWhile (· == '\n')).toString))

def perform (s : Surroundings) (options : Options) (command : Command) : IO Report := do
  let found ← match settingsPath s options with
    | some p => content? p
    | none => pure none
  match settings s options found with
  | .error f => return failureReport f
  | .ok settings =>
    let store ← readStore settings.dataDir
    let count := (store.files.list settings.dataDir).toOption.elim 0 List.length
    let start := session settings (Journal.mk store []) (← entropy count) [← ownerId]
    let (r, e) ← converse (command.perform.run.run start)
    e.store.changes.forM (apply settings.dataDir)
    return reportOf (filterOf s settings) e.log r

def report (s : Surroundings) (args : List String) : IO Report :=
  match readArguments s.fallbacks args with
  | .error f => return usageReport f
  | .ok .help => return helpReport
  | .ok .version => return versionReport
  | .ok (.run options command) => perform s options command

end PhraseVault.Main

def main (args : List String) : IO UInt32 := do
  let r ← PhraseVault.Main.report (← PhraseVault.Main.surroundings) args
  r.diagnostics.forM IO.eprintln
  r.output.forM IO.println
  return r.exitCode.toUInt32
