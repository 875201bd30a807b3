import PhraseVault.Proofs.Sealing

/-!
# Packing vectors and unpacking them

Whatever is packed unpacks again. The other way round only canonical vectors come back: unpacking
also takes vectors with words too many, or with something other than zeros after the bytes that
count.
-/
namespace PhraseVault.Iv

/-- As many words as the bytes that count fill, the last one filled up with zeros. -/
structure Canonical (iv : Iv) : Prop where
  length_words : iv.words.length = (iv.sigBytes + 3) / 4
  tail_zero : ∀ w ∈ iv.words.getLast?, ∀ x ∈
    (Bytes.ofWordBE w.toUInt32).drop (iv.sigBytes - 4 * (iv.words.length - 1)), x = 0

theorem wordBytes_injective {ws vs : List Int32} (h : wordBytes ws = wordBytes vs) : ws = vs := by
  have hlen := congrArg List.length h
  rw [length_wordBytes, length_wordBytes] at hlen
  induction ws generalizing vs with
  | nil =>
    rw [List.length_nil] at hlen
    exact (List.length_eq_zero_iff.mp (by omega)).symm
  | cons w ws ih =>
    cases vs with
    | nil =>
      simp only [List.length_cons, List.length_nil] at hlen
      omega
    | cons v vs =>
      obtain ⟨hw, hws⟩ := List.append_inj h rfl
      simp only [List.length_cons] at hlen
      have hv : w = v := congrArg UInt32.toInt32 (Bytes.ofWordBE_injective hw)
      rw [hv, ih hws (by omega)]

/-- Packing fills up with zeros to whole words. -/
theorem wordBytes_packWords (b : Bytes) :
    wordBytes (packWords b) = Bytes.zeroFill (4 * ((b.length + 3) / 4)) b := by
  have hword : ∀ (w : UInt32) (ws : List Int32),
      wordBytes (w.toInt32 :: ws) = Bytes.ofWordBE w ++ wordBytes ws := fun _ _ => rfl
  fun_induction packWords b with
  | case1 => rfl
  | case5 a b c d rest ih =>
    have hl : 4 * ((rest.length + 4 + 3) / 4) - (rest.length + 4) =
        4 * ((rest.length + 3) / 4) - rest.length := by omega
    rw [hword, Bytes.ofWordBE_wordBE, ih]
    simp only [Bytes.zeroFill, List.length_cons, List.cons_append, List.nil_append,
      Nat.add_assoc, Nat.reduceAdd] at hl ⊢
    rw [hl]
  | _ => simp [Bytes.ofWordBE_wordBE, Bytes.zeroFill, wordBytes, List.replicate]

theorem length_packWords_eq (b : Bytes) : (packWords b).length = (b.length + 3) / 4 := by
  have hl := congrArg List.length (wordBytes_packWords b)
  rw [length_wordBytes, Bytes.length_zeroFill] at hl
  omega

/-- Only the last word has bytes that do not count. -/
private theorem drop_wordBytes {ws : List Int32} {w : Int32} {n : Nat}
    (hw : w ∈ ws.getLast?) (hn : 4 * (ws.length - 1) ≤ n) :
    (wordBytes ws).drop n = (Bytes.ofWordBE w.toUInt32).drop (n - 4 * (ws.length - 1)) := by
  obtain ⟨front, rfl⟩ := List.getLast?_eq_some_iff.mp hw
  have hl := length_wordBytes front
  have hsplit : wordBytes (front ++ [w]) = wordBytes front ++ Bytes.ofWordBE w.toUInt32 := by
    simp [wordBytes]
  simp only [List.length_append, List.length_singleton, Nat.add_sub_cancel] at hn ⊢
  rw [hsplit, List.drop_append, List.drop_eq_nil_of_le (by omega), List.nil_append, hl,
    Nat.mul_comm front.length]

/-- Of a canonical vector the bytes that count say everything. -/
private theorem Canonical.wordBytes_eq {iv : Iv} (h : iv.Canonical) :
    wordBytes iv.words =
      Bytes.zeroFill (4 * ((iv.sigBytes + 3) / 4)) ((wordBytes iv.words).take iv.sigBytes) := by
  have hl := h.length_words
  have hlen : (wordBytes iv.words).length = 4 * ((iv.sigBytes + 3) / 4) := by
    rw [length_wordBytes]
    omega
  have htake : ((wordBytes iv.words).take iv.sigBytes).length = iv.sigBytes := by
    rw [List.length_take]
    omega
  have htail : (wordBytes iv.words).drop iv.sigBytes =
      List.replicate (4 * ((iv.sigBytes + 3) / 4) - iv.sigBytes) 0 := by
    refine List.eq_replicate_iff.mpr ⟨by rw [List.length_drop, hlen], ?_⟩
    cases hw : iv.words.getLast? with
    | none =>
      rw [List.getLast?_eq_none_iff.mp hw]
      simp [wordBytes]
    | some w =>
      rw [drop_wordBytes hw (by omega)]
      exact h.tail_zero w hw
  rw [Bytes.zeroFill, htake, ← htail, List.take_append_drop]

theorem canonical_pack (b : Bytes) : (pack b).Canonical := by
  refine ⟨length_packWords_eq b, ?_⟩
  intro w hw x hx
  have hl : (packWords b).length = (b.length + 3) / 4 := length_packWords_eq b
  rw [← drop_wordBytes hw (by simp only [pack]; omega)] at hx
  simp only [pack, wordBytes_packWords, Bytes.zeroFill, List.drop_left] at hx
  exact List.eq_of_mem_replicate hx

theorem unpack_eq_error_iff {iv : Iv} {fault : Primitive.Fault} : iv.unpack = .error fault ↔
    iv.words.length * 4 < iv.sigBytes ∧ fault = .ivLength iv.sigBytes (iv.words.length * 4) := by
  rw [unpack]
  split <;> simp_all [eq_comm]

theorem unpack_of_le {iv : Iv} (h : iv.sigBytes ≤ iv.words.length * 4) :
    iv.unpack = .ok ((wordBytes iv.words).take iv.sigBytes) ∧
      ((wordBytes iv.words).take iv.sigBytes).length = iv.sigBytes := by
  refine ⟨by rw [unpack, if_neg (not_lt.mpr h)], ?_⟩
  rw [List.length_take, length_wordBytes]
  exact min_eq_left h

@[simp] theorem unpack_pack (b : Bytes) : (pack b).unpack = .ok b := by
  rw [(unpack_of_le (length_packWords b)).1]
  exact congrArg Except.ok (take_wordBytes_packWords b)

theorem map_pack_unpack_iff (iv : Iv) : iv.unpack.map pack = .ok iv ↔ iv.Canonical := by
  constructor
  · intro h
    cases hu : iv.unpack with
    | error fault =>
      rw [hu] at h
      cases h
    | ok b =>
      rw [hu] at h
      rw [← Except.ok.inj h]
      exact canonical_pack b
  · intro h
    have hl := h.length_words
    have hle : iv.sigBytes ≤ iv.words.length * 4 := by omega
    obtain ⟨hu, hlen⟩ := unpack_of_le hle
    have hwords : packWords ((wordBytes iv.words).take iv.sigBytes) = iv.words := by
      apply wordBytes_injective
      rw [wordBytes_packWords, hlen, ← h.wordBytes_eq]
    rw [hu, Except.map, pack, hlen, hwords]

/-- What has been packed unpacks. A vector unpacks to the bytes that count if it has words for them,
and packing gives it back exactly if it is canonical. -/
theorem packing_inverts :
    (∀ b, (pack b).unpack = .ok b) ∧
    ∀ iv : Iv,
      (∀ fault, iv.unpack = .error fault ↔ iv.words.length * 4 < iv.sigBytes ∧
        fault = .ivLength iv.sigBytes (iv.words.length * 4)) ∧
      (iv.sigBytes ≤ iv.words.length * 4 → ∃ b, iv.unpack = .ok b ∧ b.length = iv.sigBytes) ∧
      (iv.unpack.map pack = .ok iv ↔ iv.Canonical) := by
  refine ⟨unpack_pack, fun iv => ⟨fun _ => unpack_eq_error_iff, ?_, map_pack_unpack_iff iv⟩⟩
  intro h
  obtain ⟨hu, hlen⟩ := unpack_of_le h
  exact ⟨_, hu, hlen⟩

/-- Five bytes that count of three words unpack, but packing leaves the third word away. -/
theorem packing_inverts_surplus :
    (∃ b, unpack ⟨[-1, 0x01020304, 5], 5⟩ = .ok b ∧ b.length = 5) ∧
    ¬ (unpack ⟨[-1, 0x01020304, 5], 5⟩).map pack = .ok ⟨[-1, 0x01020304, 5], 5⟩ := by
  obtain ⟨-, hread, hiff⟩ := packing_inverts.2 ⟨[-1, 0x01020304, 5], 5⟩
  refine ⟨hread (by decide), fun h => ?_⟩
  have hc := (hiff.mp h).length_words
  simp at hc

end PhraseVault.Iv
