import PhraseVault.Cipher.Sealing
import PhraseVault.Proofs.Base64
import PhraseVault.Proofs.Bytes

/-!
# Opening undoes sealing

Padding, counter mode, Base64 and UTF-8 undo each other one after the other. A text is the sealed
form of some text exactly if it is well-formed: Base64 of whole blocks that decrypt to padded UTF-8.
-/
namespace PhraseVault

/-- The vector has words for all its bytes, and bytes enough to start the count. -/
structure Iv.Usable (iv : Iv) : Prop where
  covered : iv.sigBytes ≤ iv.words.length * 4
  long : Counter.blockLength ≤ iv.sigBytes

theorem Iv.length_wordBytes (words : List Int32) : (wordBytes words).length = words.length * 4 := by
  induction words with
  | nil => rfl
  | cons w ws ih =>
    have hw : wordBytes (w :: ws) = Bytes.ofWordBE w.toUInt32 ++ wordBytes ws := rfl
    rw [hw, List.length_append, ih, Bytes.length_ofWordBE, List.length_cons]
    omega

theorem Iv.length_packWords (b : Bytes) : b.length ≤ (packWords b).length * 4 := by
  fun_induction packWords b with
  | case5 a b c d rest ih =>
    simp only [List.length_cons]
    omega
  | _ => simp

/-- A fresh vector can be used. -/
theorem Iv.usable_pack {b : Bytes} (h : Counter.blockLength ≤ b.length) : (pack b).Usable :=
  ⟨length_packWords b, h⟩

/-- What is packed is kept, with zeros after it. -/
theorem Iv.take_wordBytes_packWords (b : Bytes) :
    (wordBytes (packWords b)).take b.length = b := by
  have hword : ∀ (w : UInt32) (ws : List Int32),
      wordBytes (w.toInt32 :: ws) = Bytes.ofWordBE w ++ wordBytes ws := fun _ _ => rfl
  fun_induction packWords b with
  | case1 => rfl
  | case5 a b c d rest ih =>
    rw [hword, Bytes.ofWordBE_wordBE]
    exact congrArg (a :: b :: c :: d :: ·) ih
  | _ => simp [hword, Bytes.ofWordBE_wordBE]

theorem Counter.apply_apply (key counter data : Bytes) :
    Counter.apply key counter (Counter.apply key counter data) = data := by
  rw [Counter.apply, Counter.length_apply, Counter.apply]
  exact Bytes.xor_xor_cancel (Counter.le_length_keystream key counter data.length)

namespace Sealing

/-- The first sixteen bytes of a vector. -/
def firstBlock (iv : Iv) : Bytes := (Iv.wordBytes iv.words).take Counter.blockLength

theorem counterBlock_of_usable {iv : Iv} (h : iv.Usable) : counterBlock iv = .ok (firstBlock iv) := by
  have hc : ¬ iv.words.length * 4 < iv.sigBytes := by
    have := h.covered
    omega
  have hl : ((Iv.wordBytes iv.words).take iv.sigBytes).length = iv.sigBytes := by
    rw [List.length_take, Iv.length_wordBytes]
    exact min_eq_left h.covered
  have hs : ¬ iv.sigBytes < Counter.blockLength := by
    have := h.long
    omega
  simp only [counterBlock, Iv.unpack, if_neg hc, bind, Except.bind, hl, if_neg hs, pure, Except.pure,
    List.take_take, min_eq_left h.long, firstBlock]

/-- A packed vector starts with the bytes that have been packed. -/
theorem firstBlock_pack {b : Bytes} (h : Counter.blockLength ≤ b.length) :
    firstBlock (Iv.pack b) = b.take Counter.blockLength := by
  have hpack := congrArg (List.take Counter.blockLength) (Iv.take_wordBytes_packWords b)
  rwa [List.take_take, min_eq_left h] at hpack

theorem start_of_usable {key : Bytes} {iv : Iv} (hk : key.length = keyLength) (hi : iv.Usable) :
    start key iv = .ok (firstBlock iv) := by
  rw [start, if_neg (not_not_intro hk), counterBlock_of_usable hi]

/-- Bytes followed by one to sixteen bytes that hold their number. -/
def Padded (padded body : Bytes) : Prop :=
  ∃ n, 1 ≤ n ∧ n ≤ Counter.blockLength ∧ padded = body ++ List.replicate n (UInt8.ofNat n)

theorem padded_pad (body : Bytes) : Padded (pad body) body := by
  refine ⟨Counter.blockLength - body.length % Counter.blockLength, ?_, ?_, rfl⟩
  · simp only [Counter.blockLength]
    omega
  · exact Nat.sub_le _ _

theorem length_pad (body : Bytes) : (pad body).length = (body.length / 16 + 1) * 16 := by
  simp only [pad, List.length_append, List.length_replicate, Counter.blockLength]
  omega

theorem dvd_length_pad (body : Bytes) : Counter.blockLength ∣ (pad body).length := by
  simp only [pad, Counter.blockLength, List.length_append, List.length_replicate]
  omega

/-- Whole blocks leave no choice of how long the padding is. -/
theorem eq_pad_of_padded {padded body : Bytes} (h : Padded padded body)
    (hl : Counter.blockLength ∣ padded.length) : padded = pad body := by
  obtain ⟨n, h₁, h₂, rfl⟩ := h
  have hn : n = Counter.blockLength - body.length % Counter.blockLength := by
    simp only [Counter.blockLength, List.length_append, List.length_replicate] at *
    omega
  simp only [pad, ← hn]

theorem unpad_of_padded {padded body : Bytes} (h : Padded padded body) : unpad padded = body := by
  obtain ⟨n, h₁, h₂, rfl⟩ := h
  have hn : (UInt8.ofNat n).toNat = n := by
    simp only [Counter.blockLength] at h₂
    exact Utf8.toNat_ofNat_of_lt (by omega)
  have hlast : (body ++ List.replicate n (UInt8.ofNat n)).getLast? = some (UInt8.ofNat n) := by
    obtain ⟨m, rfl⟩ : ∃ m, n = m + 1 := ⟨n - 1, by omega⟩
    rw [List.replicate_succ', ← List.append_assoc, List.getLast?_concat]
  have hlen : (body ++ List.replicate n (UInt8.ofNat n)).length - n = body.length := by simp
  have hle : n ≤ (body ++ List.replicate n (UInt8.ofNat n)).length := by simp
  have hall : (List.replicate n (UInt8.ofNat n)).all (· == UInt8.ofNat n) = true := by simp
  simp only [unpad, hlast, hn, hlen, List.drop_left, List.take_left]
  rw [if_pos ⟨h₁, h₂, hle, hall⟩]

theorem encrypt_of_usable {key : Bytes} {iv : Iv} (hk : key.length = keyLength) (hi : iv.Usable)
    (text : String) : encrypt text key iv =
      .ok (Base64.encode (Counter.apply key (firstBlock iv) (pad (Utf8.encode text)))) := by
  rw [encrypt, start_of_usable hk hi]
  rfl

/-- A sealed text tells of the text no more than how many blocks it fills. -/
theorem length_of_encrypt {key : Bytes} {iv : Iv} {text sealedText : String}
    (h : encrypt text key iv = .ok sealedText) :
    sealedText.length = (((Utf8.encode text).length / 16 + 1) * 16 + 2) / 3 * 4 := by
  rw [encrypt] at h
  cases hs : start key iv with
  | error fault =>
    rw [hs] at h
    cases h
  | ok counter =>
    rw [hs] at h
    cases h
    rw [Base64.length_encode, Counter.length_apply, length_pad]

theorem decrypt_of_decode {key : Bytes} {iv : Iv} (hk : key.length = keyLength) (hi : iv.Usable)
    {sealedText : String} {data : Bytes} (hd : Base64.decode sealedText = .ok data) :
    decrypt sealedText key iv =
      .ok (Utf8.decodeLossy (unpad (Counter.apply key (firstBlock iv) data))) := by
  rw [decrypt, start_of_usable hk hi, hd]
  rfl

/-- What has been sealed can be opened with the same key and vector. -/
theorem decrypt_of_encrypt {key : Bytes} {iv : Iv} (hk : key.length = keyLength) (hi : iv.Usable)
    {text sealedText : String} (h : encrypt text key iv = .ok sealedText) :
    decrypt sealedText key iv = .ok text := by
  rw [encrypt_of_usable hk hi] at h
  cases h
  rw [decrypt_of_decode hk hi (Base64.decode_encode _), Counter.apply_apply,
    unpad_of_padded (padded_pad _), Utf8.decodeLossy_encode]

/-- What opens with one key opens with any other, if only to some other text. -/
theorem exists_decrypt {key other : Bytes} {iv : Iv} {sealedText text : String}
    (hl : other.length = key.length) (h : decrypt sealedText key iv = .ok text) :
    ∃ text', decrypt sealedText other iv = .ok text' := by
  have hs : start other iv = start key iv := by rw [start, start, hl]
  rw [decrypt] at h
  rw [decrypt, hs]
  cases hc : start key iv with
  | error fault =>
    rw [hc] at h
    cases h
  | ok counter =>
    cases hd : Base64.decode sealedText with
    | error fault =>
      rw [hc, hd] at h
      cases h
    | ok data => exact ⟨_, rfl⟩

/-- What can be wrong with a sealed text and its vector: there are too few words, or too few bytes to
start the count, or the text is not Base64. -/
inductive Spoilt (sealedText : String) (iv : Iv) : Primitive.Fault → Prop
  | uncovered (h : iv.words.length * 4 < iv.sigBytes) :
    Spoilt sealedText iv (.ivLength iv.sigBytes (iv.words.length * 4))
  | short (h : iv.sigBytes < Counter.blockLength) :
    Spoilt sealedText iv (.ivLength Counter.blockLength iv.sigBytes)
  | undecodable {fault : Base64.Fault} (h : ∀ data, Base64.encode data ≠ sealedText) :
    Spoilt sealedText iv (.base64 fault)

theorem counterBlock_eq (iv : Iv) :
    counterBlock iv =
      if iv.words.length * 4 < iv.sigBytes then .error (.ivLength iv.sigBytes (iv.words.length * 4))
      else if iv.sigBytes < Counter.blockLength then
        .error (.ivLength Counter.blockLength iv.sigBytes)
      else .ok (firstBlock iv) := by
  by_cases hc : iv.words.length * 4 < iv.sigBytes
  · rw [if_pos hc, counterBlock, Iv.unpack, if_pos hc]
    rfl
  by_cases hs : iv.sigBytes < Counter.blockLength
  · have hl : ((Iv.wordBytes iv.words).take iv.sigBytes).length = iv.sigBytes := by
      rw [List.length_take, Iv.length_wordBytes]
      exact min_eq_left (not_lt.mp hc)
    rw [if_neg hc, if_pos hs, counterBlock, Iv.unpack, if_neg hc]
    simp only [bind, Except.bind, hl, if_pos hs]
    rfl
  · rw [if_neg hc, if_neg hs]
    exact counterBlock_of_usable ⟨not_lt.mp hc, not_lt.mp hs⟩

theorem spoilt_of_start {key : Bytes} {iv : Iv} (hk : key.length = keyLength)
    {fault : Primitive.Fault} (h : start key iv = .error fault) (sealedText : String) :
    Spoilt sealedText iv fault := by
  rw [start, if_neg (not_not_intro hk), counterBlock_eq] at h
  split_ifs at h with hc hs
  · cases h
    exact .uncovered hc
  · cases h
    exact .short hs

theorem usable_of_start {key counter : Bytes} {iv : Iv} (h : start key iv = .ok counter) :
    iv.Usable := by
  rw [start, counterBlock_eq] at h
  split_ifs at h with hk hc hs
  exact ⟨not_lt.mp hc, not_lt.mp hs⟩

/-- Opening only complains of the sealed text and its vector. -/
theorem spoilt_of_decrypt {key : Bytes} {iv : Iv} (hk : key.length = keyLength)
    {sealedText : String} {fault : Primitive.Fault} (h : decrypt sealedText key iv = .error fault) :
    Spoilt sealedText iv fault := by
  rw [decrypt] at h
  cases hs : start key iv with
  | error startFault =>
    rw [hs] at h
    cases h
    exact spoilt_of_start hk hs sealedText
  | ok counter =>
    cases hd : Base64.decode sealedText with
    | error decodeFault =>
      rw [hs, hd] at h
      cases h
      refine .undecodable fun data he => ?_
      rw [← he, Base64.decode_encode] at hd
      cases hd
    | ok data =>
      rw [hs, hd] at h
      cases h

/-- What can be opened is not spoilt. -/
theorem not_spoilt_of_decrypt {key : Bytes} {iv : Iv} {sealedText text : String}
    (h : decrypt sealedText key iv = .ok text) (fault : Primitive.Fault) :
    ¬ Spoilt sealedText iv fault := by
  rw [decrypt] at h
  cases hs : start key iv with
  | error startFault =>
    rw [hs] at h
    cases h
  | ok counter =>
    have hu := usable_of_start hs
    rintro (hc | hl | hd)
    · exact not_lt.mpr hu.covered hc
    · exact not_lt.mpr hu.long hl
    · cases hdecode : Base64.decode sealedText with
      | error decodeFault =>
        rw [hs, hdecode] at h
        cases h
      | ok data => exact hd data (Base64.eq_encode_of_decode hdecode).symm

/-- Base64 of whole blocks, at least one, that decrypt to UTF-8 and well-formed padding. -/
def WellFormed (key : Bytes) (iv : Iv) (sealedText : String) : Prop :=
  ∃ data, Base64.decode sealedText = .ok data ∧ data ≠ [] ∧ Counter.blockLength ∣ data.length ∧
    ∃ body text, Padded (Counter.apply key (firstBlock iv) data) body ∧ Utf8.decode body = .ok text

theorem wellFormed_of_encrypt {key : Bytes} {iv : Iv} (hk : key.length = keyLength) (hi : iv.Usable)
    {text sealedText : String} (h : encrypt text key iv = .ok sealedText) :
    WellFormed key iv sealedText := by
  rw [encrypt_of_usable hk hi] at h
  cases h
  refine ⟨_, Base64.decode_encode _, ?_, ?_, Utf8.encode text, text, ?_, Utf8.decode_encode text⟩
  · intro hn
    have hl := congrArg List.length hn
    rw [Counter.length_apply, pad, List.length_append, List.length_replicate] at hl
    simp only [Counter.blockLength, List.length_nil] at hl
    omega
  · rw [Counter.length_apply]
    exact dvd_length_pad _
  · rw [Counter.apply_apply]
    exact padded_pad _

theorem encrypt_of_wellFormed {key : Bytes} {iv : Iv} (hk : key.length = keyLength) (hi : iv.Usable)
    {sealedText : String} (h : WellFormed key iv sealedText) :
    ∃ text, encrypt text key iv = .ok sealedText := by
  obtain ⟨data, hd, -, hl, body, text, hp, ht⟩ := h
  refine ⟨text, ?_⟩
  have hpad : Counter.apply key (firstBlock iv) data = pad body :=
    eq_pad_of_padded hp (by rwa [Counter.length_apply])
  rw [encrypt_of_usable hk hi, ← Utf8.eq_encode_of_decode ht, ← hpad, Counter.apply_apply,
    ← Base64.eq_encode_of_decode hd]

/-- Sealing succeeds and opening gives the text back. The sealed forms are the well-formed texts,
and each of them is the sealed form of what it opens to. -/
theorem sealed_iff_wellFormed {key : Bytes} {iv : Iv} (hk : key.length = keyLength)
    (hi : iv.Usable) :
    (∀ text, ∃ sealedText, encrypt text key iv = .ok sealedText ∧
      decrypt sealedText key iv = .ok text) ∧
    (∀ sealedText, (∃ text, encrypt text key iv = .ok sealedText) ↔ WellFormed key iv sealedText) ∧
    ∀ sealedText text, encrypt text key iv = .ok sealedText → decrypt sealedText key iv = .ok text := by
  refine ⟨fun text => ?_, fun sealedText => ⟨?_, encrypt_of_wellFormed hk hi⟩,
    fun _ _ => decrypt_of_encrypt hk hi⟩
  · exact ⟨_, encrypt_of_usable hk hi text, decrypt_of_encrypt hk hi (encrypt_of_usable hk hi text)⟩
  · rintro ⟨text, h⟩
    exact wellFormed_of_encrypt hk hi h

/-- A block-aligned text that ends in what looks like padding comes back whole. -/
theorem sealed_iff_wellFormed_block :
    let key : Bytes := List.replicate 32 7
    let iv := Iv.pack (List.replicate 24 255)
    key.length = keyLength ∧ iv.Usable ∧ ∃ sealedText,
      encrypt "fourteen bytes\x02\x02" key iv = .ok sealedText ∧
        decrypt sealedText key iv = .ok "fourteen bytes\x02\x02" := by
  have hk : (List.replicate 32 7 : Bytes).length = keyLength := by decide
  have hi : (Iv.pack (List.replicate 24 255)).Usable := ⟨by decide, by decide⟩
  exact ⟨hk, hi, (sealed_iff_wellFormed hk hi).1 _⟩

end Sealing
end PhraseVault
