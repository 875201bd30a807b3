import PhraseVault.Password
import PhraseVault.Proofs.Utf8
import Mathlib.Data.List.DropRight

/-!
# Which passwords derive alike

Key stretching sees the normal form of a password as one block: a form of more than a block is hashed
first, and what is short is filled up with zeros. So it cannot tell whether a form ends in zeros, nor
a long form from its digest.
-/
namespace PhraseVault

namespace Bytes

/-- A byte string without the zeros at its end. -/
def trim (b : Bytes) : Bytes := b.rdropWhile (· == 0)

theorem trim_append_zeros (b : Bytes) (n : Nat) : trim (b ++ List.replicate n 0) = trim b := by
  induction n with
  | zero => rw [List.replicate_zero, List.append_nil]
  | succ n ih =>
    rw [List.replicate_succ', ← List.append_assoc, trim,
      List.rdropWhile_concat_pos (· == 0) _ 0 rfl]
    exact ih

theorem exists_trim_append_zeros (b : Bytes) : ∃ n, b = trim b ++ List.replicate n 0 := by
  refine ⟨(b.rtakeWhile (· == 0)).length, ?_⟩
  have hz : b.rtakeWhile (· == 0) = List.replicate (b.rtakeWhile (· == 0)).length 0 :=
    List.eq_replicate_of_mem fun x hx => eq_of_beq (List.mem_rtakeWhile_imp (p := (· == 0)) hx)
  rw [← hz, trim, List.rdropWhile_append_rtakeWhile]

private theorem zeroFill_eq_trim {n : Nat} {b : Bytes} (h : b.length ≤ n) :
    zeroFill n b = zeroFill n (trim b) := by
  obtain ⟨k, hk⟩ := exists_trim_append_zeros b
  have hl : b.length = (trim b).length + k := by
    conv_lhs => rw [hk]
    rw [List.length_append, List.length_replicate]
  have hn : n - (trim b).length = k + (n - b.length) := by omega
  rw [zeroFill, zeroFill, hn, List.replicate_add, ← List.append_assoc, ← hk]

/-- Filling up with zeros keeps all but the zeros at the end. -/
theorem zeroFill_eq_iff {n : Nat} {a b : Bytes} (ha : a.length ≤ n) (hb : b.length ≤ n) :
    zeroFill n a = zeroFill n b ↔ trim a = trim b := by
  constructor
  · intro h
    have ht := congrArg trim h
    rwa [zeroFill, zeroFill, trim_append_zeros, trim_append_zeros] at ht
  · intro h
    rw [zeroFill_eq_trim ha, zeroFill_eq_trim hb, h]

end Bytes

namespace Utf8

/-- Only the character zero ends in a zero byte. -/
private theorem getLast_encodeChar {c : Char} (hc : c ≠ '\x00') :
    ∃ front last, encodeChar c = front ++ [last] ∧ last ≠ 0 := by
  have hn : c.toNat ≠ 0 := fun h => hc (Char.toNat_inj.mp h)
  have hmore : UInt8.ofNat (0x80 + c.toNat % 64) ≠ 0 := by
    intro h
    have := congrArg UInt8.toNat h
    rw [toNat_ofNat_of_lt (by omega)] at this
    simp at this
  simp only [encodeChar]
  split
  · refine ⟨[], _, rfl, fun h => hn ?_⟩
    have := congrArg UInt8.toNat h
    rwa [toNat_ofNat_of_lt (by omega)] at this
  split
  · exact ⟨[_], _, rfl, hmore⟩
  split
  · exact ⟨[_, _], _, rfl, hmore⟩
  · exact ⟨[_, _, _], _, rfl, hmore⟩

/-- The zero bytes at the end of a written text are its zero characters. -/
theorem trim_encode (s : String) :
    Bytes.trim (encode s) = encode (String.ofList (s.toList.rdropWhile (· == '\x00'))) := by
  rw [encode, encode, String.toList_ofList]
  induction s.toList using List.reverseRecOn with
  | nil => rfl
  | append_singleton cs c ih =>
    by_cases hc : c = '\x00'
    · have hz : encodeChar c = List.replicate 1 0 := by rw [hc]; rfl
      rw [List.flatMap_append, List.flatMap_singleton, hz, Bytes.trim_append_zeros, ih,
        List.rdropWhile_concat_pos _ _ _ (by rw [hc]; rfl)]
    · obtain ⟨front, last, he, hl⟩ := getLast_encodeChar hc
      rw [List.rdropWhile_concat_neg _ _ _ (by simpa using hc), List.flatMap_append,
        List.flatMap_singleton, he, ← List.append_assoc, Bytes.trim,
        List.rdropWhile_concat_neg _ _ _ (by simpa using hl)]

end Utf8

namespace Hmac

/-- What a key is made into before it is filled up. -/
def material (key : Bytes) : Bytes := if blockLength < key.length then Sha256.hash key else key

theorem length_material_le (key : Bytes) : (material key).length ≤ blockLength := by
  rw [material]
  split
  · rw [Sha256.length_hash]
    decide
  · next h => exact Nat.not_lt.mp h

theorem keyBlock_eq_iff {k l : Bytes} :
    keyBlock k = keyBlock l ↔ Bytes.trim (material k) = Bytes.trim (material l) :=
  Bytes.zeroFill_eq_iff (length_material_le k) (length_material_le l)

private theorem stretchFrom_congr {k l : Bytes} (h : keyBlock k = keyBlock l) (salt : Bytes)
    (block count : Nat) : stretchFrom k salt block count = stretchFrom l salt block count := by
  induction count generalizing block with
  | zero => rfl
  | succ count ih => rw [stretchFrom, stretchFrom, hmac_eq_of_keyBlock_eq h, ih]

theorem stretch_congr {k l : Bytes} (h : keyBlock k = keyBlock l) (salt : Bytes) (length : Nat) :
    stretch k salt length = stretch l salt length := by
  rw [stretch, stretch, stretchFrom_congr h]

end Hmac

namespace Password

/-- What key stretching tells from other passwords. -/
def effective (password : String) : Bytes :=
  Bytes.trim (Hmac.material (Utf8.encode (Unicode.normalize password)))

/-- The normal form takes no more than a block, so that it is not hashed. -/
def IsShort (password : String) : Prop :=
  (Utf8.encode (Unicode.normalize password)).length ≤ Hmac.blockLength

/-- The characters of the normal form without the zeros at its end. -/
def significant (password : String) : List Char :=
  (Unicode.normalize password).toList.rdropWhile (· == '\x00')

/-- Key stretching sees the normal form as it is: it is short and does not end in zeros. -/
structure IsExact (password : String) : Prop where
  short : IsShort password
  significant_eq : significant password = (Unicode.normalize password).toList

/-- Two passwords that key stretching could tell apart derive alike all the same. -/
def Collides (salt : Bytes) (p q : String) : Prop :=
  effective p ≠ effective q ∧ derive p salt = derive q salt

variable {p q : String}

theorem effective_of_isShort (h : IsShort p) :
    effective p = Utf8.encode (String.ofList (significant p)) := by
  rw [effective, Hmac.material, if_neg (Nat.not_lt.mpr h), Utf8.trim_encode, significant]

theorem effective_eq_iff_of_isShort (hp : IsShort p) (hq : IsShort q) :
    effective p = effective q ↔ significant p = significant q := by
  rw [effective_of_isShort hp, effective_of_isShort hq]
  constructor
  · intro h
    exact String.ofList_injective (Utf8.encode_injective h)
  · intro h
    rw [h]

theorem IsExact.significant_eq_iff (hp : IsExact p) (hq : IsExact q) :
    significant p = significant q ↔ Unicode.normalize p = Unicode.normalize q := by
  rw [hp.significant_eq, hq.significant_eq, String.toList_inj]

/-- Passwords derive alike that key stretching cannot tell apart, whatever the salt. -/
theorem derive_eq_of_effective_eq (h : effective p = effective q) (salt : Bytes) :
    derive p salt = derive q salt := by
  have hb := Hmac.keyBlock_eq_iff.mpr h
  rw [derive, derive, Scrypt.derive, Scrypt.derive]
  simp only [Hmac.stretch_congr hb]

theorem derive_eq_iff (salt : Bytes) :
    derive p salt = derive q salt ↔ effective p = effective q ∨ Collides salt p q := by
  constructor
  · intro h
    by_cases he : effective p = effective q
    · exact .inl he
    · exact .inr ⟨he, h⟩
  · rintro (h | h)
    · exact derive_eq_of_effective_eq h salt
    · exact h.2

end Password
end PhraseVault
