import PhraseVault.Store.File

/-!
# What others do to the directory of the records

Files, directories and links that are put there, taken away and looked at by their names, without
regard to any record.
-/
namespace PhraseVault.FileStore
open FileSystem

/-- Makes the directory of the records before something is put there. -/
def inRoot (s : FileStore) (f : FileSystem → Except IoFault Unit × FileSystem) :
    Except IoFault Unit × FileStore :=
  s.change fun fs =>
    match makeDirectories s.root fs with
    | (.ok _, fs) => f fs
    | (.error e, fs) => (.error e, fs)

def placeFile (name content : Bytes) (s : FileStore) : Except IoFault Unit × FileStore :=
  s.inRoot (attempt (writeFile (s.path name) content keptMode))

def placeDirectory (name : Bytes) (s : FileStore) : Except IoFault Unit × FileStore :=
  s.inRoot (makeDirectories (s.path name))

def placeLink (name target : Bytes) (s : FileStore) : Except IoFault Unit × FileStore :=
  s.inRoot (attempt (makeLink (s.path name) target))

def removeName (name : Bytes) (s : FileStore) : Except IoFault Unit × FileStore :=
  s.change (attempt (remove (s.path name)))

/-- The mode and the entries of the directory of the records, if there is one. -/
def inspect (s : FileStore) : Option (Nat × Entries) :=
  match s.files.find s.root with
  | .ok (.directory mode entries) => some (mode, entries)
  | _ => none

end PhraseVault.FileStore
