import PhraseVault.Store.File

/-!
# A store of one of two kinds
-/
namespace PhraseVault

inductive EitherStore where
  | memory (records : Records)
  | files (store : FileStore)

namespace EitherStore

def mapMemory {α : Type} (r : α × Records) : α × EitherStore := (r.1, .memory r.2)

def mapFiles {α : Type} (r : α × FileStore) : α × EitherStore := (r.1, .files r.2)

instance : RecordStore EitherStore where
  get
    | key, .memory r => mapMemory (RecordStore.get key r)
    | key, .files s => mapFiles (RecordStore.get key s)
  set
    | key, value, .memory r => mapMemory (RecordStore.set key value r)
    | key, value, .files s => mapFiles (RecordStore.set key value s)
  delete
    | key, .memory r => mapMemory (RecordStore.delete key r)
    | key, .files s => mapFiles (RecordStore.delete key s)
  keys
    | .memory r => mapMemory (RecordStore.keys r)
    | .files s => mapFiles (RecordStore.keys s)

end EitherStore
end PhraseVault
