import PhraseVault.Store.File

/-!
# Records below a directory

The keys of all files in the directories below one, by the names that lead there.
-/
namespace PhraseVault

namespace FileStore

/-- The keys that the files of a directory are named by. -/
def keysOf (entries : Entries) : List String := (labels entries).filterMap Label.key?

end FileStore

mutual

/-- The records in a node and below it; `above` are the names that lead to it. -/
def Node.records (above : List Bytes) : Node → List (List Bytes × String)
  | .directory _ es => (FileStore.keysOf es).map (above, ·) ++ recordsBelow above es
  | _ => []

/-- The records below entries, but not those that are entries themselves. -/
def recordsBelow (above : List Bytes) : List (Bytes × Node) → List (List Bytes × String)
  | [] => []
  | (name, n) :: rest => n.records (above ++ [name]) ++ recordsBelow above rest

end

/-- The records below the working directory. -/
def FileSystem.records (fs : FileSystem) : List (List Bytes × String) :=
  recordsBelow [] (fs.entries fs.working)

end PhraseVault
