import PhraseVault.Proofs.Key
import PhraseVault.Proofs.Store.Listing

/-!
# A directory of record files is a map

A directory that only ever had records put into it, to the end or up to some step, answers every
call as records in memory do that refuse keys whose temporary file would have too long a name.
Temporary files left behind have no part in any answer.
-/
namespace PhraseVault

/-- A key whose temporary file has a name that is not too long. -/
def Fits (key : String) : Prop := (Utf8.encode key).length ≤ 125

instance (key : String) : Decidable (Fits key) := inferInstanceAs (Decidable (_ ≤ _))

/-- Records in memory, except that keys that do not fit are refused. -/
structure Limited where
  records : Records

namespace Limited

def keep {α : Type} (r : α × Records) : α × Limited := (r.1, ⟨r.2⟩)

instance : RecordStore Limited where
  get key l := keep (RecordStore.get key l.records)
  set key value l :=
    if Fits key then keep (RecordStore.set key value l.records) else (.error .nameTooLong, l)
  delete key l := keep (RecordStore.delete key l.records)
  keys l := keep (RecordStore.keys l.records)

end Limited

namespace FileStore
open FileSystem
variable {s : FileStore} {t : Trail} {mode : Nat} {es : Entries} {r : Records}
variable {key : String} {value content : Bytes} {fileMode : Nat}

theorem fits_iff : Fits key ↔ (tempName key).length ≤ maxNameLength := by
  rw [Fits, length_tempName, maxNameLength]
  omega

theorem length_fileName_le (h : Fits key) : (fileName key).length ≤ maxNameLength := by
  rw [Fits] at h
  rw [length_fileName, maxNameLength]
  omega

/-- Entries that are the files of records and temporary files that were left behind. -/
structure Keeping (es : Entries) (r : Records) : Prop where
  onlyFiles : es.OnlyFiles
  named : ∀ name n, (name, n) ∈ es → ∃ key, name = fileName key ∨ name = tempName key
  stored : ∀ key, (es.get? (fileName key)).bind Node.content? = r[key]?
  fits : ∀ key, key ∈ r → key ≠ "" ∧ Fits key

namespace Keeping

theorem nil : Keeping [] ∅ where
  onlyFiles := .nil
  named := by simp
  stored key := by simp [Entries.get?]
  fits key h := absurd h Std.ExtTreeMap.not_mem_empty

theorem put_temp (h : Keeping es r) (hf : Fits key) :
    Keeping (Entries.put (tempName key) (.file content fileMode) es) r where
  onlyFiles := h.onlyFiles.put (isName_tempName key).ne_nil (fits_iff.mp hf) content fileMode
  named name n he := by
    rcases Entries.mem_put he with he | he
    · exact ⟨key, .inr (Prod.mk.inj he).1⟩
    · exact h.named name n he
  stored other := by
    rw [Entries.get?_put_of_ne (fileName_ne_tempName other key), h.stored]
  fits := h.fits

theorem without_temp (h : Keeping es r) (key : String) :
    Keeping (Entries.without (tempName key) es) r where
  onlyFiles := h.onlyFiles.without _
  named name n he := h.named name n (List.mem_filter.mp he).1
  stored other := by
    rw [Entries.get?_without_of_ne (fileName_ne_tempName other key), h.stored]
  fits := h.fits

theorem put_file (h : Keeping es r) (hk : key ≠ "") (hf : Fits key) :
    Keeping (Entries.put (fileName key) (.file value fileMode) es) (r.insert key value) where
  onlyFiles := h.onlyFiles.put (fileName_ne_nil hk) (length_fileName_le hf) value fileMode
  named name n he := by
    rcases Entries.mem_put he with he | he
    · exact ⟨key, .inl (Prod.mk.inj he).1⟩
    · exact h.named name n he
  stored other := by
    rw [Records.getElem?_insert]
    by_cases ho : key = other
    · subst ho
      rw [if_pos rfl, Entries.get?_put_self]
      rfl
    · have hne : fileName other ≠ fileName key := fun he => ho (fileName_injective he).symm
      rw [if_neg ho, Entries.get?_put_of_ne hne, h.stored]
  fits other ho := by
    rcases Std.ExtTreeMap.mem_insert.mp ho with he | ho
    · rw [← Std.compare_eq_iff_eq.mp he]
      exact ⟨hk, hf⟩
    · exact h.fits other ho

theorem without_file (h : Keeping es r) (key : String) :
    Keeping (Entries.without (fileName key) es) (r.erase key) where
  onlyFiles := h.onlyFiles.without _
  named name n he := h.named name n (List.mem_filter.mp he).1
  stored other := by
    rw [Records.getElem?_erase]
    by_cases ho : key = other
    · subst ho
      rw [if_pos rfl, Entries.get?_without_self]
      rfl
    · have hne : fileName other ≠ fileName key := fun he => ho (fileName_injective he).symm
      rw [if_neg ho, Entries.get?_without_of_ne hne, h.stored]
  fits other ho := h.fits other (Std.ExtTreeMap.mem_erase.mp ho).2

theorem mem_iff (h : Keeping es r) : key ∈ r ↔ (es.get? (fileName key)).isSome := by
  rw [← Records.getElem?_ne_none_iff, ← h.stored]
  cases he : es.get? (fileName key) with
  | none => simp
  | some n =>
    obtain ⟨content, fileMode, rfl⟩ := Node.isFile_iff.mp (h.onlyFiles.isFile_of_get? he)
    simp [Node.content?]

/-- Neither a record's file nor a temporary one is named for another key. -/
theorem canonical (h : Keeping es r) : Canonical es := by
  intro name n he key hl
  obtain ⟨other, hn | hn⟩ := h.named name n he
  · rw [hn, label_fileName] at hl
    rw [hn, Label.key.inj hl]
  · rw [hn, label_tempName] at hl
    cases hl

theorem listing (h : Keeping es r) : listing es = ⟨r.keys, []⟩ := by
  have hkeys : (FileStore.listing es).keys = r.keys := by
    refine (h.canonical.pairwise_lt_listing h.onlyFiles).eq_of_mem_iff (Records.pairwise_keys r)
      fun key => ?_
    rw [h.canonical.mem_listing h.onlyFiles, Std.ExtTreeMap.mem_keys, h.mem_iff]
  have hignored : (FileStore.listing es).ignored = [] := by
    rw [FileStore.listing, List.filterMap_eq_nil_iff, labels_eq h.onlyFiles]
    intro l hl
    obtain ⟨⟨name, n⟩, he, rfl⟩ := List.mem_map.mp hl
    obtain ⟨key, hn | hn⟩ := h.named name n he
    · simp only [hn, label_fileName, Label.unknown?]
    · simp only [hn, label_tempName, Label.unknown?]
  rw [← hkeys, ← hignored]

end Keeping

/-- A store that holds records: its directory is not there yet, or has nothing in it but their files
and temporary ones. -/
inductive Holds (s : FileStore) : Records → Prop
  | absent (h : Absent s) : Holds s ∅
  | present {t : Trail} {mode : Nat} {es : Entries} {r : Records} (ho : Open s t mode es)
      (hk : Keeping es r) : Holds s r

/-- The directory is there, and a temporary file in it has a value that is being set. -/
def Written (key : String) (value : Bytes) (r : Records) (s : FileStore) : Prop :=
  ∃ t mode es fileMode, Open s t mode es ∧ Keeping es r ∧
    es.get? (tempName key) = some (.file value fileMode)

namespace Holds

theorem fits (h : s.Holds r) (hk : key ∈ r) : key ≠ "" ∧ Fits key := by
  cases h with
  | absent => exact absurd hk Std.ExtTreeMap.not_mem_empty
  | present ho h => exact h.fits key hk

theorem of_written (h : Written key value r s) : s.Holds r := by
  obtain ⟨t, mode, es, fileMode, ho, hk, -⟩ := h
  exact .present ho hk

theorem get (h : s.Holds r) (hk : key ≠ "") : s.get key = .ok r[key]? := by
  cases h with
  | absent h => rw [h.get hk, Std.ExtTreeMap.getElem?_empty]
  | present ho h => rw [ho.get hk, h.stored]

theorem keys (h : s.Holds r) : s.keys = .ok ⟨r.keys, []⟩ := by
  cases h with
  | absent h =>
    rw [h.keys]
    rfl
  | present ho h => rw [ho.keys, h.listing]

theorem delete (h : s.Holds r) (hk : key ≠ "") :
    ∃ s', s.delete key = (.ok (), s') ∧ s'.Holds (r.erase key) := by
  cases h with
  | absent h =>
    have he : (∅ : Records).erase key = ∅ := by simp
    rw [he]
    exact ⟨s, h.delete hk, .absent h⟩
  | present ho h =>
    rw [ho.delete hk]
    split
    · exact ⟨_, rfl, .present (ho.without _) (h.without_file key)⟩
    · next hn =>
      rw [Records.erase_eq_self (h.mem_iff.not.mpr hn)]
      exact ⟨s, rfl, .present ho h⟩

section Steps

theorem run_create (h : s.Holds r) :
    ∃ s' t mode es, Step.create.run s = (.ok (), s') ∧ Open s' t mode es ∧ Keeping es r := by
  cases h with
  | absent h =>
    obtain ⟨t, files, hrun, ho⟩ := h.run_create
    exact ⟨_, t, _, [], hrun, ho, .nil⟩
  | present ho h => exact ⟨s, _, _, _, ho.run_create, ho, h⟩

theorem run_clear (ho : Open s t mode es) (h : Keeping es r) (hf : Fits key) :
    ∃ s', (Step.clear (tempName key)).run s = (.ok (), s') ∧ Written key [] r s' := by
  have hn := isName_tempName key
  have hl := fits_iff.mp hf
  exact ⟨_, ho.run_clear hn hl, t, mode, _, _, ho.put hn.ne_nil hl _ _, h.put_temp hf,
    Entries.get?_put_self _ _ _⟩

theorem run_clear_of_not_fits (ho : Open s t mode es) (hf : ¬ Fits key) :
    (Step.clear (tempName key)).run s = (.error .nameTooLong, s) :=
  ho.run_clear_of_tooLong (isName_tempName key) (Nat.not_le.mp (fits_iff.not.mp hf))

theorem run_write (h : Written key content r s) (hf : Fits key) (value : Bytes) :
    ∃ s', (Step.write (tempName key) value).run s = (.ok (), s') ∧ Written key value r s' := by
  obtain ⟨t, mode, es, fileMode, ho, hk, -⟩ := h
  have hn := isName_tempName key
  have hl := fits_iff.mp hf
  exact ⟨_, ho.run_write hn hl value, t, mode, _, _, ho.put hn.ne_nil hl _ _, hk.put_temp hf,
    Entries.get?_put_self _ _ _⟩

theorem run_rename (h : Written key value r s) (hk : key ≠ "") (hf : Fits key) :
    ∃ s', (Step.rename (tempName key) (fileName key)).run s = (.ok (), s') ∧
      s'.Holds (r.insert key value) := by
  obtain ⟨t, mode, es, fileMode, ho, h, hfile⟩ := h
  have hl := length_fileName_le hf
  exact ⟨_, ho.run_rename (isName_tempName key) (isName_fileName hk) hfile (fits_iff.mp hf) hl,
    .present ((ho.without _).put (fileName_ne_nil hk) hl _ _) ((h.without_temp key).put_file hk hf)⟩

end Steps

/-- Stopped after any step, a value has been put into place or nothing has changed. -/
theorem runSteps_take (h : s.Holds r) (hk : key ≠ "") (value : Bytes) (n : Nat) :
    ∃ r', (r' = r ∨ 3 < n ∧ r' = r.insert key value) ∧
      (runSteps ((setSteps key value).take n) s).2.Holds r' := by
  cases n with
  | zero => exact ⟨r, .inl rfl, h⟩
  | succ n =>
    obtain ⟨s₁, t, mode, es, hcreate, ho, hes⟩ := h.run_create
    simp only [setSteps, List.take_succ_cons, runSteps, hcreate]
    cases n with
    | zero => exact ⟨r, .inl rfl, .present ho hes⟩
    | succ n =>
      simp only [List.take_succ_cons, runSteps]
      by_cases hf : Fits key
      · obtain ⟨s₂, hclear, hw⟩ := run_clear ho hes hf
        simp only [hclear]
        cases n with
        | zero => exact ⟨r, .inl rfl, of_written hw⟩
        | succ n =>
          obtain ⟨s₃, hwrite, hw⟩ := run_write hw hf value
          simp only [List.take_succ_cons, runSteps, hwrite]
          cases n with
          | zero => exact ⟨r, .inl rfl, of_written hw⟩
          | succ n =>
            obtain ⟨s₄, hrename, hr⟩ := run_rename hw hk hf
            simp only [List.take_succ_cons, List.take_nil, runSteps, hrename]
            exact ⟨_, .inr ⟨by omega, rfl⟩, hr⟩
      · simp only [run_clear_of_not_fits ho hf]
        exact ⟨r, .inl rfl, .present ho hes⟩

theorem set_of_fits (h : s.Holds r) (hk : key ≠ "") (hf : Fits key) (value : Bytes) :
    ∃ s', s.set key value = (.ok (), s') ∧ s'.Holds (r.insert key value) := by
  obtain ⟨s₁, t, mode, es, hcreate, ho, hes⟩ := h.run_create
  obtain ⟨s₂, hclear, hw⟩ := run_clear ho hes hf
  obtain ⟨s₃, hwrite, hw⟩ := run_write hw hf value
  obtain ⟨s₄, hrename, hr⟩ := run_rename hw hk hf
  refine ⟨s₄, ?_, hr⟩
  simp only [FileStore.set, setSteps, runSteps, hcreate, hclear, hwrite, hrename]

theorem set_of_not_fits (h : s.Holds r) (hf : ¬ Fits key) (value : Bytes) :
    ∃ s', s.set key value = (.error .nameTooLong, s') ∧ s'.Holds r := by
  obtain ⟨s₁, t, mode, es, hcreate, ho, hes⟩ := h.run_create
  refine ⟨s₁, ?_, .present ho hes⟩
  simp only [FileStore.set, setSteps, runSteps, hcreate, run_clear_of_not_fits ho hf]

end Holds
end FileStore

/-- A call on a store. -/
inductive Call where
  | get (key : String)
  | set (key : String) (value : Bytes)
  | delete (key : String)
  | keys

/-- What a store says to a call. -/
inductive Reply where
  | content (r : Except IoFault (Option Bytes))
  | done (r : Except IoFault Unit)
  | listing (r : Except IoFault Listing)

namespace Call
variable {σ : Type} [RecordStore σ]

def run : Call → σ → Reply × σ
  | get key, s => ((RecordStore.get key s).map Reply.content id)
  | set key value, s => ((RecordStore.set key value s).map Reply.done id)
  | delete key, s => ((RecordStore.delete key s).map Reply.done id)
  | keys, s => ((RecordStore.keys s).map Reply.listing id)

/-- The replies to calls made one after the other. -/
def replies : List Call → σ → List Reply
  | [], _ => []
  | c :: cs, s => (c.run s).1 :: replies cs (c.run s).2

/-- The call names no empty key. -/
def Proper : Call → Prop
  | get key | set key _ | delete key => key ≠ ""
  | keys => True

end Call

namespace FileStore
variable {s : FileStore} {r : Records}

/-- A call is answered as the records answer it, and the store holds what becomes of them. -/
theorem Holds.run (h : s.Holds r) {c : Call} (hc : c.Proper) :
    ∃ s', c.run s = ((c.run (Limited.mk r)).1, s') ∧ s'.Holds (c.run (Limited.mk r)).2.records := by
  cases c with
  | get key =>
    refine ⟨s, ?_, h⟩
    simp only [Call.run, RecordStore.get, h.get hc]
    rfl
  | set key value =>
    by_cases hf : Fits key
    · obtain ⟨s', hs, h'⟩ := h.set_of_fits hc hf value
      refine ⟨s', ?_, ?_⟩
      · simp only [Call.run, RecordStore.set, hs, if_pos hf]
        rfl
      · simp only [Call.run, RecordStore.set, if_pos hf]
        exact h'
    · obtain ⟨s', hs, h'⟩ := h.set_of_not_fits hf value
      refine ⟨s', ?_, ?_⟩
      · simp only [Call.run, RecordStore.set, hs, if_neg hf]
        rfl
      · simp only [Call.run, RecordStore.set, if_neg hf]
        exact h'
  | delete key =>
    obtain ⟨s', hs, h'⟩ := h.delete hc
    refine ⟨s', ?_, h'⟩
    simp only [Call.run, RecordStore.delete, hs]
    rfl
  | keys =>
    refine ⟨s, ?_, h⟩
    simp only [Call.run, RecordStore.keys, h.keys]
    rfl

theorem Holds.replies (h : s.Holds r) {calls : List Call} (hc : ∀ c ∈ calls, c.Proper) :
    Call.replies calls s = Call.replies calls (Limited.mk r) := by
  induction calls generalizing s r with
  | nil => rfl
  | cons c calls ih =>
    obtain ⟨s', hrun, h'⟩ := h.run (hc c List.mem_cons_self)
    rw [Call.replies, Call.replies, hrun, ih h' fun d hd => hc d (List.mem_cons_of_mem _ hd)]

/-- A directory that holds records, with whatever temporary files beside them, is a map: every
sequence of calls is answered as by the records, but for keys that do not fit. A value that is put
into place up to some step either is in place then or has left no trace that a call could find. -/
theorem answers_as_map (h : s.Holds r) :
    (∀ calls : List Call, (∀ c ∈ calls, c.Proper) →
      Call.replies calls s = Call.replies calls (Limited.mk r)) ∧
    ∀ key, key ≠ "" → ∀ value n, ∃ r', (r' = r ∨ 3 < n ∧ r' = r.insert key value) ∧
      (runSteps ((setSteps key value).take n) s).2.Holds r' ∧
      ∀ calls : List Call, (∀ c ∈ calls, c.Proper) →
        Call.replies calls (runSteps ((setSteps key value).take n) s).2 =
          Call.replies calls (Limited.mk r') := by
  refine ⟨fun calls hc => h.replies hc, fun key hk value n => ?_⟩
  obtain ⟨r', hr, h'⟩ := h.runSteps_take hk value n
  exact ⟨r', hr, h', fun calls hc => h'.replies hc⟩

/-- The file of the record `K` and what a second value for it has left behind. -/
def leftover : Entries :=
  [([0x34, 0x62], .file [1] 0), ([0x34, 0x62, 0x2E, 0x74, 0x6D, 0x70], .file [2] 0)]

theorem holds_leftover : (directory leftover).Holds ((∅ : Records).insert "K" [1]) := by
  have hk : fileName "K" = [0x34, 0x62] := by decide
  have ht : tempName "K" = [0x34, 0x62, 0x2E, 0x74, 0x6D, 0x70] := by decide
  have hes : leftover = Entries.put (tempName "K") (.file [2] 0)
      (Entries.put (fileName "K") (.file [1] 0) []) := by
    rw [hk, ht]
    rfl
  have hkeeping : Keeping leftover ((∅ : Records).insert "K" [1]) := by
    rw [hes]
    exact (Keeping.nil.put_file (by decide) (by decide)).put_temp (by decide)
  obtain ⟨t, ho⟩ :=
    open_of_find (find_directory leftover) (hasRoom_directory leftover) hkeeping.onlyFiles
  exact .present ho hkeeping

/-- A directory to be made beside the working directory. -/
def beside : FileStore := ⟨[0x2E, 0x2E, 0x2F, 0x76], .bare [[0x77]]⟩

theorem absent_beside : Absent beside where
  room := by
    change 4 + 1 + 255 ≤ 4095
    decide
  vacant := rfl
  rises := ⟨[Path.up], [[0x76]], [], rfl, .up (.done _ _), by decide⟩
  working := ⟨_, _, rfl⟩
  made := rfl

/-- In a directory with a temporary file left over, and in one that is not there yet. -/
theorem answers_as_map_leftover :
    Call.replies [.get "K", .keys, .delete "K", .get "K"] (directory leftover) =
        [.content (.ok (some [1])), .listing (.ok ⟨["K"], []⟩), .done (.ok ()), .content (.ok none)] ∧
      Call.replies [.get "K", .get "L"]
          (runSteps ((setSteps "L" [3]).take 3) (directory leftover)).2 =
        [.content (.ok (some [1])), .content (.ok none)] ∧
      Call.replies [.get "K", .set "K" [1], .keys] beside =
        [.content (.ok none), .done (.ok ()), .listing (.ok ⟨["K"], []⟩)] := by
  obtain ⟨hcalls, hcut⟩ := answers_as_map holds_leftover
  refine ⟨?_, ?_, ?_⟩
  · rw [hcalls _ (by simp [Call.Proper])]
    rfl
  · obtain ⟨r', hr, -, hafter⟩ := hcut "L" (by decide) [3] 3
    obtain rfl := hr.resolve_right fun h => absurd h.1 (Nat.lt_irrefl 3)
    rw [hafter _ (by simp [Call.Proper])]
    rfl
  · rw [(answers_as_map (.absent absent_beside)).1 _ (by simp [Call.Proper])]
    rfl

end FileStore
end PhraseVault
