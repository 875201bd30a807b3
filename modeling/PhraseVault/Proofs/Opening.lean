import PhraseVault.Proofs.Sealing

/-!
# What opening can fail for

Key and vector are looked at first, in a fixed order, and then the text, which has to be Base64.
Nothing else is objected to, whatever the bytes decrypt to. Of the vector only the first sixteen
bytes are used.
-/
namespace PhraseVault.Sealing
variable {key : Bytes} {iv iv' : Iv}

/-- What keeps a key and a vector from being used, in the order in which it is looked at. -/
def obstacle? (key : Bytes) (iv : Iv) : Option Primitive.Fault :=
  if key.length ≠ keyLength then some (.keyLength keyLength key.length)
  else if iv.words.length * 4 < iv.sigBytes then some (.ivLength iv.sigBytes (iv.words.length * 4))
  else if iv.sigBytes < Counter.blockLength then some (.ivLength Counter.blockLength iv.sigBytes)
  else none

theorem start_of_obstacle {fault : Primitive.Fault} (h : obstacle? key iv = some fault) :
    start key iv = .error fault := by
  rw [obstacle?] at h
  rw [start, counterBlock_eq]
  split_ifs at h ⊢ <;> cases h <;> rfl

theorem obstacle?_eq_none_iff : obstacle? key iv = none ↔ key.length = keyLength ∧ iv.Usable := by
  constructor
  · intro h
    rw [obstacle?] at h
    split_ifs at h with hk hc hs
    exact ⟨not_not.mp hk, not_lt.mp hc, not_lt.mp hs⟩
  · rintro ⟨hk, hc, hs⟩
    rw [obstacle?, if_neg (not_not_intro hk), if_neg (not_lt.mpr hc), if_neg (not_lt.mpr hs)]

theorem length_firstBlock (h : iv.Usable) : (firstBlock iv).length = Counter.blockLength := by
  rw [firstBlock, List.length_take, Iv.length_wordBytes]
  exact min_eq_left (h.long.trans h.covered)

theorem unpad_isPrefix (b : Bytes) : unpad b <+: b := by
  rw [unpad]
  split
  · exact List.prefix_refl b
  · dsimp only
    split
    · exact List.take_prefix _ b
    · exact List.prefix_refl b

theorem decrypt_of_undecodable {sealedText : String} {counter : Bytes}
    (hs : start key iv = .ok counter) (h : ∀ data, Base64.encode data ≠ sealedText) :
    ∃ fault, decrypt sealedText key iv = .error (.base64 fault) := by
  cases hd : Base64.decode sealedText with
  | ok data => exact absurd (Base64.eq_encode_of_decode hd).symm (h data)
  | error fault =>
    refine ⟨fault, ?_⟩
    rw [decrypt, hs, hd]
    rfl

/-- Vectors that unpack to the same first bytes start the count alike. -/
theorem start_congr {b b' : Bytes} (h : iv.unpack = .ok b) (h' : iv'.unpack = .ok b')
    (hl : Counter.blockLength ≤ b.length) (hl' : Counter.blockLength ≤ b'.length)
    (he : b.take Counter.blockLength = b'.take Counter.blockLength) (key : Bytes) :
    start key iv = start key iv' := by
  have hblock : counterBlock iv = counterBlock iv' := by
    simp only [counterBlock, h, h', bind, Except.bind, if_neg (not_lt.mpr hl),
      if_neg (not_lt.mpr hl'), he]
  rw [start, start, hblock]

/-- Sealing and opening fail for the first thing that is wrong with key and vector. If nothing is,
sealing succeeds; opening fails for a text that is not Base64 and gives some text for any other. And
vectors that start alike cannot be told apart. -/
theorem faults_structural (key : Bytes) (iv : Iv) :
    (∀ fault, obstacle? key iv = some fault →
      (∀ text, encrypt text key iv = .error fault) ∧
      ∀ sealedText, decrypt sealedText key iv = .error fault) ∧
    (obstacle? key iv = none → ∃ counter,
      start key iv = .ok counter ∧ counter.length = Counter.blockLength ∧
      (∀ text, ∃ sealedText, encrypt text key iv = .ok sealedText) ∧
      (∀ data, ∃ opened, opened <+: Counter.apply key counter data ∧
        decrypt (Base64.encode data) key iv = .ok (Utf8.decodeLossy opened)) ∧
      ∀ sealedText, (∀ data, Base64.encode data ≠ sealedText) →
        ∃ fault, decrypt sealedText key iv = .error (.base64 fault)) ∧
    ∀ (iv' : Iv) (b b' : Bytes), iv.unpack = .ok b → iv'.unpack = .ok b' →
      Counter.blockLength ≤ b.length → Counter.blockLength ≤ b'.length →
      b.take Counter.blockLength = b'.take Counter.blockLength →
      (∀ text, encrypt text key iv = encrypt text key iv') ∧
      ∀ sealedText, decrypt sealedText key iv = decrypt sealedText key iv' := by
  refine ⟨fun fault h => ?_, fun h => ?_, fun iv' b b' hb hb' hl hl' he => ?_⟩
  · have hs := start_of_obstacle h
    refine ⟨fun text => ?_, fun sealedText => ?_⟩
    · rw [encrypt, hs]
      rfl
    · rw [decrypt, hs]
      rfl
  · obtain ⟨hk, hi⟩ := obstacle?_eq_none_iff.mp h
    have hs := start_of_usable hk hi
    refine ⟨firstBlock iv, hs, length_firstBlock hi, fun text => ⟨_, encrypt_of_usable hk hi text⟩,
      fun data => ?_, fun _ => decrypt_of_undecodable hs⟩
    exact ⟨_, unpad_isPrefix _, decrypt_of_decode hk hi (Base64.decode_encode data)⟩
  · have hs := start_congr hb hb' hl hl' he key
    refine ⟨fun text => ?_, fun sealedText => ?_⟩
    · rw [encrypt, encrypt, hs]
    · rw [decrypt, decrypt, hs]

/-- A word more, cut off in its middle, makes no difference, and a word too few is complained of
before its sixteen bytes are found to be missing. -/
theorem faults_structural_words :
    let key : Bytes := List.replicate 32 7
    let iv : Iv := ⟨[1, -2, 3, -4], 16⟩
    let longer : Iv := ⟨[1, -2, 3, -4, 5], 18⟩
    let short : Iv := ⟨[1, -2, 3], 15⟩
    obstacle? key iv = none ∧ encrypt "word" key iv = encrypt "word" key longer ∧
      decrypt "" key short = .error (.ivLength 15 12) ∧
      ∃ fault, decrypt "====" key iv = .error (.base64 fault) := by
  intro key iv longer short
  obtain ⟨-, hopens, hcongr⟩ := faults_structural key iv
  obtain ⟨_, -, -, -, -, hundecodable⟩ := hopens (by decide)
  refine ⟨by decide, ?_, ?_, ?_⟩
  · exact (hcongr longer _ _ rfl rfl (by decide) (by decide) (by decide)).1 "word"
  · exact ((faults_structural key short).1 (.ivLength 15 12) (by decide)).2 ""
  · refine hundecodable "====" fun data he => ?_
    have hd : Base64.decode "====" = .error (.invalidSymbol Base64.fill 0) := rfl
    rw [← he, Base64.decode_encode] at hd
    cases hd

end PhraseVault.Sealing
