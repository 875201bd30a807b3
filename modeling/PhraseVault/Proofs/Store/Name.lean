import PhraseVault.Store.File
import PhraseVault.Proofs.Hex
import PhraseVault.Proofs.Store.Path

/-!
# Names of record files

Every key names one file, and from its name the key is read back. A temporary file is told from all
of them by its ending.
-/
namespace PhraseVault.FileStore
variable {key : String}

theorem fileName_eq (key : String) : fileName key =
    (Hex.encodeChars (Utf8.encode key)).map fun c => UInt8.ofNat c.toNat :=
  Hex.encode_utf8 _

theorem length_fileName (key : String) : (fileName key).length = 2 * (Utf8.encode key).length :=
  Hex.length_encode _

theorem length_tempName (key : String) :
    (tempName key).length = 2 * (Utf8.encode key).length + 4 := by
  rw [tempName, List.length_append, length_fileName]
  rfl

theorem not_mem_fileName {b : UInt8} (h : Hex.digitValue? b = none) (key : String) :
    b ∉ fileName key := by
  intro hb
  rw [fileName_eq] at hb
  have hd := Hex.isSome_digitValue?_of_mem hb
  rw [h] at hd
  cases hd

theorem fileName_injective {a b : String} (h : fileName a = fileName b) : a = b :=
  Utf8.encode_injective (Hex.encode_injective (Utf8.encode_injective h))

/-- In one directory, different keys have different paths. -/
theorem path_fileName_injective (s : FileStore) :
    Function.Injective fun key => s.path (fileName key) := by
  intro a b h
  have hslash := not_mem_fileName (b := Path.slash) (by decide)
  exact fileName_injective (Path.eq_of_join_eq (hslash a) (hslash b) h)

/-- The byte `t` is no digit. -/
@[simp] theorem tempName_ne_fileName (a b : String) : tempName a ≠ fileName b := by
  intro h
  have ht : (0x74 : UInt8) ∈ tempName a := List.mem_append_right _ (by decide)
  exact not_mem_fileName (by decide) b (h ▸ ht)

@[simp] theorem fileName_ne_tempName (a b : String) : fileName a ≠ tempName b :=
  (tempName_ne_fileName b a).symm

theorem encode_ne_nil (h : key ≠ "") : Utf8.encode key ≠ [] := by
  intro he
  exact h (Utf8.encode_injective (he.trans rfl))

theorem fileName_ne_nil (h : key ≠ "") : fileName key ≠ [] := by
  have hl := List.length_pos_iff.mpr (encode_ne_nil h)
  rw [← List.length_pos_iff, length_fileName]
  omega

theorem isName_fileName (h : key ≠ "") : Path.IsName (fileName key) where
  ne_nil := fileName_ne_nil h
  slash_not_mem := not_mem_fileName (by decide) key
  zero_not_mem := not_mem_fileName (by decide) key
  ne_here he := not_mem_fileName (b := Path.dot) (by decide) key (by simp [he, Path.here])
  ne_up he := not_mem_fileName (b := Path.dot) (by decide) key (by simp [he, Path.up])

theorem isName_tempName (key : String) : Path.IsName (tempName key) where
  ne_nil := by simp [tempName, tempSuffix]
  slash_not_mem := by
    rw [tempName, List.mem_append, not_or]
    exact ⟨not_mem_fileName (by decide) key, by decide⟩
  zero_not_mem := by
    rw [tempName, List.mem_append, not_or]
    exact ⟨not_mem_fileName (by decide) key, by decide⟩
  ne_here he := by
    have hl := length_tempName key
    rw [he, Path.here, List.length_singleton] at hl
    omega
  ne_up he := by
    have hl := length_tempName key
    rw [he, Path.up, List.length_cons, List.length_singleton] at hl
    omega

private theorem tempName_eq (key : String) :
    tempName key = Utf8.encode (Hex.encode (Utf8.encode key) ++ ".tmp") := by
  have ht : Utf8.encode ".tmp" = tempSuffix := by decide
  rw [tempName, fileName, ← ht]
  simp only [Utf8.encode, String.toList_append, List.flatMap_append]

@[simp] theorem label_fileName (key : String) : label (fileName key) = .key key := by
  have hs : ¬ tempSuffix <:+ fileName key := by
    intro h
    exact not_mem_fileName (b := 0x74) (by decide) key (h.subset (by decide))
  rw [label, fileName, Utf8.decodeLossy_encode]
  simp only [Hex.decode_encode, Utf8.decode_encode]
  rw [fileName] at hs
  rw [if_neg hs]

@[simp] theorem label_tempName (key : String) : label (tempName key) = .temporary := by
  have hs : tempSuffix <:+ tempName key := List.suffix_append _ _
  rw [tempName_eq] at hs ⊢
  rw [label, Utf8.decodeLossy_encode, if_pos hs]

end PhraseVault.FileStore
