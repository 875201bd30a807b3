import PhraseVault.Proofs.Store.Making
import PhraseVault.Proofs.Store.Entries
import PhraseVault.Proofs.Store.Name

/-!
# Calls on a directory of record files

On a directory with nothing but files every call, and every step of one, comes down to looking up
and changing the entries of that directory. Where the directory is not there yet, nothing is found,
and the first step of putting a file into place makes it.
-/
namespace PhraseVault.FileStore
open FileSystem

/-- The directory of the records is there and has nothing but files in it. -/
structure Open (s : FileStore) (t : Trail) (mode : Nat) (es : Entries) : Prop where
  stands : Stands s.files s.root t mode es
  room : HasRoom s.root
  onlyFiles : es.OnlyFiles

/-- The store with other entries in the directory of its records. -/
def withEntries (s : FileStore) (t : Trail) (g : Entries → Entries) : FileStore :=
  { s with files := s.files.modify (.mapEntries g) t }

namespace Open
variable {s : FileStore} {t : Trail} {mode : Nat} {es : Entries} {key : String} {name : Bytes}

theorem put (h : Open s t mode es) (hn : name ≠ []) (hl : name.length ≤ maxNameLength)
    (content : Bytes) (fileMode : Nat) :
    Open (s.withEntries t (.put name (.file content fileMode))) t mode
      (Entries.put name (.file content fileMode) es) := by
  refine ⟨h.stands.mapEntries fun other n ho => ?_, h.room,
    h.onlyFiles.put hn hl content fileMode⟩
  exact .inl (h.onlyFiles.isFile_of_get? ho)

theorem without (h : Open s t mode es) (name : Bytes) :
    Open (s.withEntries t (.without name)) t mode (Entries.without name es) :=
  ⟨h.stands.mapEntries fun _ _ hn => .inl (h.onlyFiles.isFile_of_get? hn), h.room,
    h.onlyFiles.without name⟩

theorem find_path (h : Open s t mode es) (hn : Path.IsName name) : ∃ fault,
    s.files.find (s.path name) = (es.get? name).elim (.error fault) .ok := by
  rw [path]
  by_cases hl : maxNameLength < name.length
  · rw [h.stands.find_join_of_tooLong h.room hn h.onlyFiles.get?_ne_link hl,
      h.onlyFiles.get?_eq_none hl]
    exact ⟨.nameTooLong, rfl⟩
  · rw [h.stands.find_join h.room hn h.onlyFiles.get?_ne_link (Nat.not_lt.mp hl)]
    exact ⟨.notFound, rfl⟩

theorem holds_path (h : Open s t mode es) (hn : Path.IsName name) :
    s.files.holds (s.path name) = (es.get? name).isSome := by
  obtain ⟨fault, hf⟩ := h.find_path hn
  rw [FileSystem.holds, hf]
  cases es.get? name <;> rfl

theorem content?_path (h : Open s t mode es) (hn : Path.IsName name) :
    s.files.content? (s.path name) = ((es.get? name).bind Node.content?).map .ok := by
  obtain ⟨fault, hf⟩ := h.find_path hn
  rw [FileSystem.content?, hf]
  cases he : es.get? name with
  | none => rfl
  | some n =>
    obtain ⟨content, fileMode, rfl⟩ := Node.isFile_iff.mp (h.onlyFiles.isFile_of_get? he)
    rfl

/-- Reading a record is looking its name up. -/
theorem get (h : Open s t mode es) (hk : key ≠ "") :
    s.get key = .ok ((es.get? (fileName key)).bind Node.content?) := by
  delta FileStore.get
  rw [h.content?_path (isName_fileName hk)]
  cases (es.get? (fileName key)).bind Node.content? <;> rfl

/-- Listing the keys is reading the names. -/
theorem keys (h : Open s t mode es) : s.keys = .ok (listing es) := by
  rw [FileStore.keys, if_pos h.stands.holds, h.stands.list]
  rfl

theorem delete (h : Open s t mode es) (hk : key ≠ "") : s.delete key =
    if (es.get? (fileName key)).isSome then (.ok (), s.withEntries t (.without (fileName key)))
    else (.ok (), s) := by
  have hn := isName_fileName hk
  rw [FileStore.delete, h.holds_path hn]
  cases he : es.get? (fileName key) with
  | none => simp
  | some n =>
    obtain ⟨content, fileMode, rfl⟩ := Node.isFile_iff.mp (h.onlyFiles.isFile_of_get? he)
    have hr := h.stands.remove_join h.room hn he (h.onlyFiles.short_of_get? he)
    simp [change, attempt, path, hr, withEntries]

section Steps

theorem run_create (h : Open s t mode es) : Step.create.run s = (.ok (), s) := by
  simp [Step.run, change, createRoot, h.stands.holds]

theorem run_write (h : Open s t mode es) (hn : Path.IsName name)
    (hl : name.length ≤ maxNameLength) (content : Bytes) : (Step.write name content).run s =
      (.ok (), s.withEntries t (.put name (.file content privateFileMode))) := by
  have hw := h.stands.writeFile_join h.room hn (fun _ hf => h.onlyFiles.isFile_of_get? hf) hl
    content privateFileMode
  simp [Step.run, change, attempt, path, hw, withEntries]

theorem run_clear (h : Open s t mode es) (hn : Path.IsName name)
    (hl : name.length ≤ maxNameLength) : (Step.clear name).run s =
      (.ok (), s.withEntries t (.put name (.file [] privateFileMode))) :=
  h.run_write hn hl []

/-- A name that is too long cannot be written to. -/
theorem run_clear_of_tooLong (h : Open s t mode es) (hn : Path.IsName name)
    (hl : maxNameLength < name.length) : (Step.clear name).run s = (.error .nameTooLong, s) := by
  have hw := h.stands.writeFile_join_of_tooLong h.room hn h.onlyFiles.get?_ne_link hl []
    fun _ => privateFileMode
  simp [Step.run, change, attempt, path, hw]

theorem run_rename (h : Open s t mode es) {target content : Bytes} {fileMode : Nat}
    (hn : Path.IsName name) (ht : Path.IsName target)
    (hfile : es.get? name = some (.file content fileMode)) (hl : name.length ≤ maxNameLength)
    (hlt : target.length ≤ maxNameLength) : (Step.rename name target).run s =
      (.ok (), (s.withEntries t (.without name)).withEntries t
        (.put target (.file content fileMode))) := by
  have hr := h.stands.rename_join h.room hn ht hfile (fun _ hf => h.onlyFiles.isFile_of_get? hf)
    hl hlt
  simp [Step.run, change, attempt, path, hr, withEntries]

end Steps
end Open

/-- The directory of the records is not there and can be made. Its path goes up only within what is
there: else it may lead to a directory of other files, as `b/../a` does once `b` is made. -/
structure Absent (s : FileStore) : Prop where
  room : HasRoom s.root
  vacant : s.files.holds s.root = false
  rises : RisesWithin s.files s.root
  working : HasDirectory s.files s.files.working
  made : (createRoot s.root s.files).1 = .ok ()

theorem find_of_vacant {fs : FileSystem} {p : Path} (h : fs.holds p = false) :
    ∃ fault, fs.find p = .error fault := by
  rw [FileSystem.holds] at h
  cases hf : fs.find p with
  | error fault => exact ⟨fault, rfl⟩
  | ok n =>
    rw [hf] at h
    cases h

namespace Absent
variable {s : FileStore} {key : String} {name : Bytes}

theorem components_ne_nil (h : Absent s) : s.root.components ≠ [] := by
  intro hc
  obtain ⟨fault, hf⟩ := find_of_vacant h.vacant
  have hm := h.made
  simp only [createRoot, h.vacant, makeDirectories, hc, attempt, setMode] at hm
  cases hs : s.files.spot always s.root <;> simp [hs, hf, bind, Except.bind] at hm

theorem run_create (h : Absent s) : ∃ t files, Step.create.run s = (.ok (), ⟨s.root, files⟩) ∧
    Open ⟨s.root, files⟩ t privateDirectoryMode [] := by
  have hd : s.files.holdsDirectory s.root = false := by
    obtain ⟨fault, hf⟩ := find_of_vacant h.vacant
    rw [holdsDirectory, hf]
    rfl
  have hm := h.made
  simp only [createRoot, h.vacant, Bool.false_eq_true, if_false] at hm
  cases hmade : makeDirectories s.root s.files with
  | mk r made =>
    rw [hmade] at hm
    cases r with
    | error e => cases hm
    | ok u =>
      obtain ⟨t, ht⟩ := stands_of_makeDirectories h.working h.rises hd h.components_ne_nil hmade
      obtain ⟨spot, hspot, htrail⟩ := ht.exists_spot
      refine ⟨t, made.modify (.withMode privateDirectoryMode) t, ?_, ht.withMode _, h.room, .nil⟩
      simp [Step.run, change, createRoot, h.vacant, hmade, attempt, setMode, hspot, htrail, ht.find,
        bind, Except.bind, pure, Except.pure]

theorem usable (h : Absent s) : Usable s.root := by
  obtain ⟨t, files, -, ho⟩ := h.run_create
  exact ho.stands.usable

theorem find_path (h : Absent s) (hn : Path.IsName name) :
    ∃ fault, s.files.find (s.path name) = .error fault := by
  cases hf : s.files.find (s.path name) with
  | error fault => exact ⟨fault, rfl⟩
  | ok n =>
    obtain ⟨m, hm⟩ := exists_find_of_find_join h.usable hn hf
    obtain ⟨fault, he⟩ := find_of_vacant h.vacant
    cases he.symm.trans hm

theorem get (h : Absent s) (hk : key ≠ "") : s.get key = .ok none := by
  obtain ⟨fault, hf⟩ := h.find_path (isName_fileName hk)
  delta FileStore.get
  rw [FileSystem.content?, hf]

theorem keys (h : Absent s) : s.keys = .ok ⟨[], []⟩ := by
  simp [FileStore.keys, h.vacant]

theorem delete (h : Absent s) (hk : key ≠ "") : s.delete key = (.ok (), s) := by
  obtain ⟨fault, hf⟩ := h.find_path (isName_fileName hk)
  rw [FileStore.delete, FileSystem.holds, hf]
  rfl

end Absent
end PhraseVault.FileStore
