import PhraseVault.Json.Text
import PhraseVault.Proofs.Utf8

/-!
# Reading quoted text byte by byte

What one step of the reader takes: plain bytes, or an escape behind a backslash.
-/
namespace PhraseVault.Json

theorem prepend_ok (front b rest : Bytes) :
    prepend front (.ok (b, rest)) = .ok (front ++ b, rest) :=
  rfl

private theorem prepend_prepend (a b : Bytes) (r : Except Fault (Bytes × Bytes)) :
    prepend a (prepend b r) = prepend (a ++ b) r := by
  cases r <;> simp [prepend, Except.map]

private theorem prepend_nil (r : Except Fault (Bytes × Bytes)) : prepend [] r = r := by
  cases r <;> simp [prepend, Except.map]

/-- A byte that stands for itself between quotes. -/
def IsPlain (b : UInt8) : Prop := b ≠ ascii '"' ∧ ¬ b < 0x20 ∧ b ≠ ascii '\\'

private theorem readBytes_plain {b : UInt8} (h : IsPlain b) (rest : Bytes) :
    readBytes (b :: rest) = prepend [b] (readBytes rest) := by
  rw [readBytes.eq_def]
  simp only
  rw [if_neg h.1, if_neg h.2.1, if_pos h.2.2]

theorem readBytes_plain_append {bs : Bytes} (h : ∀ b ∈ bs, IsPlain b) (rest : Bytes) :
    readBytes (bs ++ rest) = prepend bs (readBytes rest) := by
  induction bs with
  | nil => rw [List.nil_append, prepend_nil]
  | cons b bs ih =>
    rw [List.cons_append, readBytes_plain (h b (by simp)), ih fun c hc => h c (by simp [hc]),
      prepend_prepend]
    rfl

theorem readBytes_escape {e c : UInt8} (hu : e ≠ ascii 'u') (he : unescape? e = some c)
    (rest : Bytes) : readBytes (ascii '\\' :: e :: rest) = prepend [c] (readBytes rest) := by
  have hq : ascii '\\' ≠ ascii '"' := by decide
  have hs : ¬ ascii '\\' < 0x20 := by decide
  rw [readBytes.eq_def]
  simp only
  rw [if_neg hq, if_neg hs, if_neg (not_not_intro rfl), if_pos hu, he]

theorem readBytes_hex {a b c d : UInt8} {n : Nat} (hn : hexUnit? a b c d = some n)
    (hl : isLowSurrogate n = false) (hh : isHighSurrogate n = false) (rest : Bytes) :
    readBytes (ascii '\\' :: ascii 'u' :: a :: b :: c :: d :: rest) =
      prepend (Utf8.encodeChar (Char.ofNat n)) (readBytes rest) := by
  have hq : ascii '\\' ≠ ascii '"' := by decide
  have hs : ¬ ascii '\\' < 0x20 := by decide
  rw [readBytes.eq_def]
  simp only
  rw [if_neg hq, if_neg hs, if_neg (not_not_intro rfl), if_neg (not_not_intro rfl), hn]
  simp [hl, hh]

private theorem isPlain_of_le {b : UInt8} (h : 0x80 ≤ b.toNat) : IsPlain b := by
  refine ⟨?_, ?_, ?_⟩
  · rintro rfl
    exact absurd h (by decide)
  · rw [UInt8.lt_iff_toNat_lt]
    exact Nat.not_lt.mpr (Nat.le_trans (by decide) h)
  · rintro rfl
    exact absurd h (by decide)

private theorem isPlain_ofNat {n : Nat} (h : 0x80 ≤ n ∧ n < 0x100) : IsPlain (UInt8.ofNat n) := by
  apply isPlain_of_le
  rw [Utf8.toNat_ofNat_of_lt h.2]
  exact h.1

/-- A character that need not be escaped is written in plain bytes. -/
theorem isPlain_encodeChar {c : Char} (hq : c ≠ '"') (hs : c ≠ '\\') (hc : ¬ c.toNat < 0x20) :
    ∀ b ∈ Utf8.encodeChar c, IsPlain b := by
  have hv : c.toNat < 0x110000 := by
    have hvalid : c.toNat.isValidChar := c.valid
    simp only [Nat.isValidChar] at hvalid
    omega
  intro b hb
  simp only [Utf8.encodeChar] at hb
  split at hb
  · next h =>
    rw [List.mem_singleton] at hb
    have hn : b.toNat = c.toNat := by rw [hb, Utf8.toNat_ofNat_of_lt (by omega)]
    refine ⟨?_, ?_, ?_⟩
    · intro he
      exact hq (Char.toNat_inj.mp (hn.symm.trans (by rw [he]; rfl)))
    · rw [UInt8.lt_iff_toNat_lt, hn]
      exact hc
    · intro he
      exact hs (Char.toNat_inj.mp (hn.symm.trans (by rw [he]; rfl)))
  split at hb
  · simp only [List.mem_cons, List.not_mem_nil, or_false] at hb
    rcases hb with rfl | rfl <;> exact isPlain_ofNat (by omega)
  split at hb
  · simp only [List.mem_cons, List.not_mem_nil, or_false] at hb
    rcases hb with rfl | rfl | rfl <;> exact isPlain_ofNat (by omega)
  · simp only [List.mem_cons, List.not_mem_nil, or_false] at hb
    rcases hb with rfl | rfl | rfl | rfl <;> exact isPlain_ofNat (by omega)

end PhraseVault.Json
