import PhraseVault.Codec.Hex
import PhraseVault.Store.FileSystem

/-!
# Records as files

One file per record in one directory of a file system. A file is named by the hex digits of its
key's bytes. A value is written to a second, temporary file that then takes the record's name, so a
record always is entirely its old or entirely its new value.
-/
namespace PhraseVault

/-- The path of the directory of the records, and the files there are. -/
structure FileStore where
  root : Path
  files : FileSystem

namespace FileStore
open FileSystem

def fileName (key : String) : Bytes := Utf8.encode (Hex.encode (Utf8.encode key))

def tempSuffix : Bytes := [0x2E, 0x74, 0x6D, 0x70]

def tempName (key : String) : Bytes := fileName key ++ tempSuffix

/-- The path of a name in the directory of the records. -/
def path (s : FileStore) (name : Bytes) : Path := s.root.join name

/-- Changes the files; a change that fails may have been made in part. -/
def change (s : FileStore) (f : FileSystem → Except IoFault Unit × FileSystem) :
    Except IoFault Unit × FileStore :=
  let (r, files) := f s.files
  (r, { s with files })

def get (key : String) (s : FileStore) : Except IoFault (Option Bytes) :=
  match s.files.content? (s.path (fileName key)) with
  | none => .ok none
  | some r => r.map some

/-- The steps of putting a file into place. -/
inductive Step where
  /-- Make the directory of the records, and keep others out of it, unless something is there. -/
  | create
  /-- Make a file empty and private. -/
  | clear (name : Bytes)
  | write (name content : Bytes)
  | rename (source target : Bytes)

def createRoot (root : Path) (fs : FileSystem) : Except IoFault Unit × FileSystem :=
  if fs.holds root then (.ok (), fs)
  else match makeDirectories root fs with
    | (.ok _, fs) => attempt (setMode root privateDirectoryMode) fs
    | (.error e, fs) => (.error e, fs)

def Step.run : Step → FileStore → Except IoFault Unit × FileStore
  | .create, s => s.change (createRoot s.root)
  | .clear name, s => s.change (attempt (writeFile (s.path name) [] fun _ => privateFileMode))
  | .write name content, s =>
    s.change (attempt (writeFile (s.path name) content fun _ => privateFileMode))
  | .rename source target, s =>
    s.change (attempt (FileSystem.rename (s.path source) (s.path target)))

/-- Runs steps until one fails. -/
def runSteps : List Step → FileStore → Except IoFault Unit × FileStore
  | [], s => (.ok (), s)
  | step :: steps, s =>
    match step.run s with
    | (.ok _, s) => runSteps steps s
    | (.error e, s) => (.error e, s)

/-- How a value is put into place. -/
def setSteps (key : String) (value : Bytes) : List Step :=
  [.create, .clear (tempName key), .write (tempName key) value,
    .rename (tempName key) (fileName key)]

def set (key : String) (value : Bytes) (s : FileStore) : Except IoFault Unit × FileStore :=
  runSteps (setSteps key value) s

/-- A link that leads nowhere stays. -/
def delete (key : String) (s : FileStore) : Except IoFault Unit × FileStore :=
  let p := s.path (fileName key)
  if s.files.holds p then s.change (attempt (remove p)) else (.ok (), s)

/-- What a file's name tells. -/
inductive Label where
  | key (key : String)
  | temporary
  | unknown (name : String)

/-- Reads a name as hex digits of a text, of either case. -/
def label (name : Bytes) : Label :=
  let text := Utf8.decodeLossy name
  if tempSuffix <:+ Utf8.encode text then .temporary
  else match Hex.decode text with
    | .ok b =>
      match Utf8.decode b with
      | .ok key => .key key
      | .error _ => .unknown text
    | .error _ => .unknown text

def Label.key? : Label → Option String
  | .key k => some k
  | _ => none

def Label.unknown? : Label → Option String
  | .unknown n => some n
  | _ => none

/-- The labels of the files of a directory; links and directories have none. -/
def labels (entries : Entries) : List Label :=
  entries.filterMap fun (name, n) =>
    match n with
    | .file .. => some (label name)
    | _ => none

def listing (entries : Entries) : Listing :=
  let ls := labels entries
  ⟨(ls.filterMap Label.key?).mergeSort (· ≤ ·), ls.filterMap Label.unknown?⟩

def keys (s : FileStore) : Except IoFault Listing :=
  if s.files.holds s.root then (s.files.list s.root).map listing else .ok ⟨[], []⟩

instance : RecordStore FileStore where
  get key s := (get key s, s)
  set := set
  delete := delete
  keys s := (keys s, s)

end FileStore
end PhraseVault
