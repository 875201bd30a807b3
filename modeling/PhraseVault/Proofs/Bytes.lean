import PhraseVault.Bytes
import Mathlib.Data.UInt

/-!
# Combining and comparing byte strings
-/
namespace PhraseVault.Bytes

private theorem xor_cancel_byte (a k : UInt8) : a ^^^ k ^^^ k = a := by
  rw [UInt8.xor_assoc, UInt8.xor_self, UInt8.xor_zero]

/-- A key stream that is long enough undoes itself. -/
theorem xor_xor_cancel {a k : Bytes} (h : a.length ≤ k.length) : xor (xor a k) k = a := by
  induction a generalizing k with
  | nil => simp [xor]
  | cons x a ih =>
    cases k with
    | nil => simp at h
    | cons y k =>
      have hi : xor (xor a k) k = a := ih (by simpa using h)
      simp only [xor, List.zipWith_cons_cons] at hi ⊢
      rw [xor_cancel_byte, hi]

private theorem foldl_or_eq_zero (b : Bytes) (x : UInt8) :
    b.foldl (· ||| ·) x = 0 ↔ x = 0 ∧ ∀ y ∈ b, y = 0 := by
  induction b generalizing x with
  | nil => simp
  | cons y b ih => simp [ih, and_assoc]

private theorem eq_of_xor {a b : Bytes} (hl : a.length = b.length) (h : ∀ y ∈ xor a b, y = 0) :
    a = b := by
  induction a generalizing b with
  | nil => exact (List.length_eq_zero_iff.mp hl.symm).symm
  | cons x a ih =>
    cases b with
    | nil => simp at hl
    | cons y b =>
      simp only [xor, List.zipWith_cons_cons, List.mem_cons, forall_eq_or_imp] at h
      rw [UInt8.xor_eq_zero_iff.mp h.1, ih (by simpa using hl) h.2]

private theorem xor_self (a : Bytes) : ∀ y ∈ xor a a, y = 0 := by
  induction a with
  | nil => simp [xor]
  | cons x a ih =>
    intro y hy
    rcases List.mem_cons.mp hy with rfl | hy
    · exact UInt8.xor_self
    · exact ih y hy

/-- The comparison that looks at every byte is equality. -/
theorem sameBytes_iff {a b : Bytes} : sameBytes a b = true ↔ a = b := by
  simp only [sameBytes, Bool.and_eq_true, beq_iff_eq, foldl_or_eq_zero, true_and]
  constructor
  · rintro ⟨hl, h⟩
    exact eq_of_xor hl h
  · rintro rfl
    exact ⟨rfl, xor_self a⟩

/-- A word is made of its four bytes. -/
theorem ofWordBE_wordBE (a b c d : UInt8) : ofWordBE (wordBE a b c d) = [a, b, c, d] := by
  simp only [ofWordBE, wordBE, List.cons.injEq, and_true]
  refine ⟨?_, ?_, ?_, ?_⟩ <;> apply UInt8.eq_of_toBitVec_eq <;> ext i hi <;>
    simp [← BitVec.getLsbD_eq_getElem] <;> grind

/-- Words are told apart by their bytes. -/
theorem ofWordBE_injective {w v : UInt32} (h : ofWordBE w = ofWordBE v) : w = v := by
  simp only [ofWordBE, List.cons.injEq, and_true, ← UInt8.toNat_inj, UInt32.toNat_toUInt8,
    UInt32.toNat_shiftRight, UInt32.reduceToNat, Nat.reduceMod, Nat.shiftRight_eq_div_pow,
    Nat.reducePow] at h
  have := w.toNat_lt
  have := v.toNat_lt
  apply UInt32.toNat_inj.mp
  omega

end PhraseVault.Bytes
