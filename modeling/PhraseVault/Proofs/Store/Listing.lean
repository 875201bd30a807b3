import PhraseVault.Proofs.Store.Calls
import Mathlib.Data.List.Sort

/-!
# What a directory of files lists

The keys are listed in order, and every record that can be read is listed. A name also counts as
that of a record when it spells the key with upper-case digits, although no record is ever read
under such a name. Without those each key is listed once and can be read.
-/
namespace PhraseVault.FileStore
open FileSystem
variable {s : FileStore} {t : Trail} {mode : Nat} {es : Entries} {key : String} {name : Bytes}

theorem open_of_find (hroot : s.files.find s.root = .ok (.directory mode es))
    (hroom : HasRoom s.root) (hfiles : es.OnlyFiles) : ∃ t, Open s t mode es := by
  obtain ⟨t, ht⟩ := stands_of_find hroot
  exact ⟨t, ht, hroom, hfiles⟩

section Labels

/-- A name is that of a record when it spells the bytes of a text. -/
theorem label_eq_key_iff : label name = .key key ↔
    ∃ text, name = Utf8.encode text ∧ Hex.decode text = .ok (Utf8.encode key) := by
  constructor
  · intro h
    rw [label] at h
    split at h
    · cases h
    cases hd : Hex.decode (Utf8.decodeLossy name) with
    | error fault =>
      rw [hd] at h
      cases h
    | ok b =>
      rw [hd] at h
      cases hb : Utf8.decode b with
      | error fault => simp [hb] at h
      | ok k =>
        simp only [hb] at h
        cases h
        refine ⟨Utf8.decodeLossy name, ?_, by rw [hd, Utf8.eq_encode_of_decode hb]⟩
        refine Utf8.eq_encode_of_decodeLossy rfl fun hr => ?_
        -- no byte of the replacement character is a digit
        have hmem : (0xEF : UInt8) ∈ Utf8.encode (Utf8.decodeLossy name) := by
          rw [Utf8.encode]
          exact List.mem_flatMap.mpr ⟨_, hr, by decide⟩
        have hdigit := Hex.isSome_digitValue?_of_decode hd _ hmem
        revert hdigit
        decide
  · rintro ⟨text, rfl, hd⟩
    have hs : ¬ tempSuffix <:+ Utf8.encode text := by
      intro hs
      have hdigit := Hex.isSome_digitValue?_of_decode hd 0x74 (hs.subset (by decide))
      revert hdigit
      decide
    rw [label, Utf8.decodeLossy_encode, if_neg hs, hd]
    simp only [Utf8.decode_encode]

/-- In lower case a key is spelled by the name of its file. -/
theorem eq_fileName_of_label (h : label name = .key key) (hn : ∀ b ∈ name, ¬ Hex.IsUpperDigit b) :
    name = fileName key := by
  obtain ⟨text, rfl, hd⟩ := label_eq_key_iff.mp h
  rw [fileName, ← Hex.eq_encode_of_decode hd hn]

theorem labels_eq (h : es.OnlyFiles) : labels es = es.map fun e => label e.1 := by
  rw [labels, ← List.filterMap_eq_map]
  refine List.filterMap_congr fun e he => ?_
  obtain ⟨name, n⟩ := e
  obtain ⟨content, fileMode, rfl⟩ := Node.isFile_iff.mp (h.isFile _ he)
  rfl

theorem key?_eq_some {l : Label} : l.key? = some key ↔ l = .key key := by
  cases l <;> simp [Label.key?]

end Labels

theorem pairwise_le_listing (es : Entries) : (listing es).keys.Pairwise (· ≤ ·) := by
  have htrans : ∀ a b c : String, decide (a ≤ b) = true → decide (b ≤ c) = true →
      decide (a ≤ c) = true := by
    intro a b c hab hbc
    exact decide_eq_true (String.le_trans (of_decide_eq_true hab) (of_decide_eq_true hbc))
  have htotal : ∀ a b : String, (decide (a ≤ b) || decide (b ≤ a)) = true := by
    intro a b
    simpa using String.le_total a b
  exact (List.pairwise_mergeSort htrans htotal _).imp of_decide_eq_true

theorem mem_listing (h : es.OnlyFiles) :
    key ∈ (listing es).keys ↔ ∃ name n, (name, n) ∈ es ∧ label name = .key key := by
  simp only [listing, List.mem_mergeSort, labels_eq h, List.mem_filterMap, List.mem_map,
    key?_eq_some]
  constructor
  · rintro ⟨l, ⟨⟨name, n⟩, he, rfl⟩, hl⟩
    exact ⟨name, n, he, hl⟩
  · rintro ⟨name, n, he, hl⟩
    exact ⟨_, ⟨(name, n), he, rfl⟩, hl⟩

theorem mem_listing_of_get? (h : es.OnlyFiles) {n : Node} (hn : es.get? (fileName key) = some n) :
    key ∈ (listing es).keys :=
  (mem_listing h).mpr ⟨fileName key, n, Entries.mem_of_get? hn, label_fileName key⟩

/-- Each name that spells a key is the name of the key's file. -/
def Canonical (es : Entries) : Prop :=
  ∀ name n, (name, n) ∈ es → ∀ key, label name = .key key → name = fileName key

theorem Canonical.mem_listing (hc : Canonical es) (h : es.OnlyFiles) :
    key ∈ (listing es).keys ↔ (es.get? (fileName key)).isSome := by
  constructor
  · intro hk
    obtain ⟨name, n, he, hl⟩ := (FileStore.mem_listing h).mp hk
    have hn := h.sorted.get?_of_mem he
    rw [hc name n he key hl] at hn
    rw [hn]
    rfl
  · intro hk
    obtain ⟨n, hn⟩ := Option.isSome_iff_exists.mp hk
    exact mem_listing_of_get? h hn

theorem Canonical.pairwise_lt_listing (hc : Canonical es) (h : es.OnlyFiles) :
    (listing es).keys.Pairwise (· < ·) := by
  have hnodup : (listing es).keys.Nodup := by
    rw [listing, (List.mergeSort_perm _ _).nodup_iff, labels_eq h, List.filterMap_map,
      List.nodup_iff_pairwise_ne, List.pairwise_filterMap]
    refine h.sorted.imp_of_mem ?_
    rintro ⟨a, n⟩ ⟨b, m⟩ ha hb hab k hk l hl rfl
    have hka := hc a n ha k (key?_eq_some.mp hk)
    have hkb := hc b m hb k (key?_eq_some.mp hl)
    simp only [hka, hkb] at hab
    exact List.lt_irrefl _ hab
  exact ((pairwise_le_listing es).and hnodup).imp fun h => Std.lt_of_le_of_ne h.1 h.2

theorem canonical_of_lowerCase (h : ∀ name n key, (name, n) ∈ es → label name = .key key →
    ∀ b ∈ name, ¬ Hex.IsUpperDigit b) : Canonical es :=
  fun name n he key hl => eq_fileName_of_label hl (h name n key he hl)

/-- A directory of files lists every record that can be read, in order. If the names that spell a
key do so in lower case, it lists nothing else, and nothing twice. -/
theorem keys_of_files (hroot : s.files.find s.root = .ok (.directory mode es))
    (hroom : HasRoom s.root) (hfiles : es.OnlyFiles) :
    ∃ l, s.keys = .ok l ∧ l.keys.Pairwise (· ≤ ·) ∧
      (∀ key, key ∈ l.keys ↔ ∃ name n text, (name, n) ∈ es ∧ name = Utf8.encode text ∧
        Hex.decode text = .ok (Utf8.encode key)) ∧
      (∀ key content, key ≠ "" → s.get key = .ok (some content) → key ∈ l.keys) ∧
      ((∀ name n key, (name, n) ∈ es → label name = .key key → ∀ b ∈ name, ¬ Hex.IsUpperDigit b) →
        l.keys.Pairwise (· < ·) ∧ ∀ key ∈ l.keys, ∃ content, s.get key = .ok (some content)) := by
  obtain ⟨t, ho⟩ := open_of_find hroot hroom hfiles
  refine ⟨listing es, ho.keys, pairwise_le_listing es, fun key => ?_, fun key content hk hg => ?_,
    fun hlower => ?_⟩
  · rw [mem_listing hfiles]
    constructor
    · rintro ⟨name, n, he, hl⟩
      obtain ⟨text, ht, hd⟩ := label_eq_key_iff.mp hl
      exact ⟨name, n, text, he, ht, hd⟩
    · rintro ⟨name, n, text, he, ht, hd⟩
      exact ⟨name, n, he, label_eq_key_iff.mpr ⟨text, ht, hd⟩⟩
  · rw [ho.get hk] at hg
    obtain ⟨n, hn, -⟩ := Option.bind_eq_some_iff.mp (Except.ok.inj hg)
    exact mem_listing_of_get? hfiles hn
  · have hc := canonical_of_lowerCase hlower
    refine ⟨hc.pairwise_lt_listing hfiles, fun key hk => ?_⟩
    obtain ⟨n, hn⟩ := Option.isSome_iff_exists.mp ((hc.mem_listing hfiles).mp hk)
    obtain ⟨content, fileMode, rfl⟩ := Node.isFile_iff.mp (hfiles.isFile_of_get? hn)
    have hne : key ≠ "" := by
      rintro rfl
      exact hfiles.ne_nil _ (Entries.mem_of_get? hn) rfl
    exact ⟨content, by rw [ho.get hne, hn]; rfl⟩

/-- A directory `r` with files of some names. -/
def directory (es : Entries) : FileStore := ⟨[0x72], ⟨.directory 0 [([0x72], .directory 0 es)], []⟩⟩

theorem find_directory (es : Entries) :
    (directory es).files.find (directory es).root = .ok (.directory 0 es) := rfl

theorem hasRoom_directory (es : Entries) : HasRoom (directory es).root := by
  change 1 + 1 + 255 ≤ 4095
  decide

/-- A record of the key `K`, a temporary file of it and a file `README`. -/
def mixed : Entries :=
  [([0x34, 0x62], .file [1] 0), ([0x34, 0x62, 0x2E, 0x74, 0x6D, 0x70], .file [] 0),
    ([0x52, 0x45, 0x41, 0x44, 0x4D, 0x45], .file [] 0)]

theorem onlyFiles_mixed : mixed.OnlyFiles where
  sorted := by
    rw [Entries.Sorted]
    decide
  isFile := by simp [mixed, Node.IsFile]
  ne_nil := by decide
  short := by decide

theorem keys_of_files_mixed : ∃ l, (directory mixed).keys = .ok l ∧ l.keys.Pairwise (· < ·) ∧
    "K" ∈ l.keys ∧ ∃ content, (directory mixed).get "K" = .ok (some content) := by
  obtain ⟨l, hl, -, hm, -, hlower⟩ :=
    keys_of_files (find_directory mixed) (hasRoom_directory mixed) onlyFiles_mixed
  have hk : "K" ∈ l.keys :=
    (hm "K").mpr ⟨[0x34, 0x62], .file [1] 0, "4b", by simp [mixed], by decide, by decide⟩
  have hnames : ∀ e ∈ mixed, (label e.1).key? = none ∨ ∀ b ∈ e.1, ¬ Hex.IsUpperDigit b := by
    decide +kernel
  obtain ⟨hlt, hget⟩ := hlower fun name n key he hkey => by
    rcases hnames (name, n) he with hother | hlow
    · rw [hkey] at hother
      cases hother
    · exact hlow
  exact ⟨l, hl, hlt, hk, hget "K" hk⟩

/-- The names `4B` and `4b` spell the key `K` and the name `4C` the key `L`. -/
def spellings : Entries :=
  [([0x34, 0x42], .file [] 0), ([0x34, 0x43], .file [] 0), ([0x34, 0x62], .file [] 0)]

theorem onlyFiles_spellings : spellings.OnlyFiles where
  sorted := by
    rw [Entries.Sorted]
    decide
  isFile := by simp [spellings, Node.IsFile]
  ne_nil := by decide
  short := by decide

/-- With upper-case digits a key is listed that cannot be read, and another one twice. -/
theorem exists_listed_unreadable : ∃ l, (directory spellings).keys = .ok l ∧ "L" ∈ l.keys ∧
    (directory spellings).get "L" = .ok none ∧ ¬ l.keys.Pairwise (· < ·) := by
  obtain ⟨t, ho⟩ :=
    open_of_find (find_directory spellings) (hasRoom_directory spellings) onlyFiles_spellings
  refine ⟨listing spellings, ho.keys, ?_, ?_, ?_⟩
  · rw [mem_listing onlyFiles_spellings]
    refine ⟨[0x34, 0x43], .file [] 0, by simp [spellings], ?_⟩
    exact label_eq_key_iff.mpr ⟨"4C", by decide, by decide⟩
  · have hn : fileName "L" = [0x34, 0x63] := by decide
    rw [ho.get (by decide), hn]
    rfl
  · intro hlt
    have hkeys : (labels spellings).filterMap Label.key? = ["K", "L", "K"] := by decide
    have hnodup : (listing spellings).keys.Nodup := by
      refine hlt.imp ?_
      rintro a b h rfl
      exact String.lt_irrefl a h
    rw [listing, (List.mergeSort_perm _ _).nodup_iff, hkeys] at hnodup
    exact absurd hnodup (by decide)

end PhraseVault.FileStore
