import PhraseVault.Json.Reader
import PhraseVault.Proofs.Json.Number
import PhraseVault.Proofs.Json.Text

/-!
# Reading written numbers

A number of a known shape reads back from what is written for it, as long as a comma or a closing
bracket follows.
-/
namespace PhraseVault.Json
variable {α : Type}

/-- The reader takes exactly the written bytes off the front, unless a number could go on there. -/
def ReadsBack (value : Reader α) (written : Bytes) (x : α) : Prop :=
  ∀ rest, EndsNumber rest → value (written ++ rest) = .ok (x, rest)

theorem skipSpace_cons {b : UInt8} (h : isSpace b = false) (rest : Bytes) :
    skipSpace (b :: rest) = b :: rest := by
  rw [skipSpace, List.dropWhile_cons_of_neg (by simp [h])]

theorem digit_facts {b : UInt8} (h : isDigit b = true) :
    isSpace b = false ∧ b ≠ ascii '-' := by
  have all : ∀ n ∈ List.range 256, isDigit (UInt8.ofNat n) = true →
      isSpace (UInt8.ofNat n) = false ∧ UInt8.ofNat n ≠ ascii '-' := by decide +kernel
  have hb := all b.toNat (List.mem_range.mpr b.toNat_lt)
  rw [UInt8.ofNat_toNat] at hb
  exact hb h

private theorem exists_cons_writeNat (n : Nat) :
    ∃ b tail, writeNat n = b :: tail ∧ isDigit b = true := by
  have hd := isDigit_writeNat n
  cases hw : writeNat n with
  | nil => exact absurd hw (writeNat_ne_nil n)
  | cons b tail => exact ⟨b, tail, rfl, hd b (by simp [hw])⟩

/-- A number in range is written as its digits, behind a sign if it is negative. -/
theorem number_writeInt (shape : Shape) {low high n : Int} (hl : low ≤ n) (hh : n < high)
    (hmin : -0x8000000000000000 ≤ n) (hmax : n < wordLimit) :
    ReadsBack (number shape low high) (writeInt n) n := by
  intro rest hr
  rw [writeInt]
  by_cases hn : n < 0
  · have hlt : n.natAbs < wordLimit := by
      simp only [wordLimit]
      omega
    have hi : integerOrReal true n.natAbs = .integer n := by
      rw [integerOrReal, if_neg (by decide), if_pos (by omega)]
      exact congrArg Number.integer (by omega)
    rw [if_pos hn, List.cons_append, number, skipSpace_cons (by decide)]
    simp only [if_true]
    rw [readNumber_writeNat true hlt hr, hi]
    simp only [bind, Except.bind, inRange, if_pos (And.intro hl hh)]
  · have hlt : n.natAbs < wordLimit := by omega
    have hi : integerOrReal false n.natAbs = .integer n := by
      rw [integerOrReal, if_pos (by decide)]
      exact congrArg Number.integer (by omega)
    obtain ⟨b, tail, hb, hd⟩ := exists_cons_writeNat n.natAbs
    have hrn := readNumber_writeNat false hlt hr
    obtain ⟨hs, hm⟩ := digit_facts hd
    rw [hb, List.cons_append] at hrn
    rw [if_neg hn, hb, List.cons_append, number, skipSpace_cons hs]
    simp only
    rw [if_neg hm, if_pos hd, hrn, hi]
    simp only [bind, Except.bind, inRange, if_pos (And.intro hl hh)]

theorem readsBack_int32 (w : Int32) : ReadsBack int32 (writeInt w.toInt) w := by
  intro rest hr
  have hl : -0x80000000 ≤ w.toInt := w.le_toInt
  have hh : w.toInt < 0x80000000 := w.toInt_lt
  have hmax : w.toInt < wordLimit := by
    simp only [wordLimit]
    omega
  rw [int32, number_writeInt .int32 hl hh (by omega) hmax rest hr]
  simp only [Except.map, Int32.ofInt_toInt]

theorem readsBack_size {n : Nat} (h : n < wordLimit) : ReadsBack size (writeNat n) n := by
  intro rest hr
  have hw : writeNat n = writeInt n := by
    rw [writeInt, if_neg (by omega), Int.natAbs_natCast]
  rw [hw, size, number_writeInt .size (by omega) (by exact_mod_cast h) (by omega)
    (by exact_mod_cast h) rest hr]
  simp only [Except.map, Int.toNat_natCast]

theorem exists_cons_writeInt (n : Int) :
    ∃ b tail, writeInt n = b :: tail ∧ isSpace b = false ∧ b ≠ ascii ']' := by
  rw [writeInt]
  split
  · exact ⟨_, _, rfl, by decide, by decide⟩
  · obtain ⟨b, tail, hb, hd⟩ := exists_cons_writeNat n.natAbs
    refine ⟨b, tail, hb, (digit_facts hd).1, ?_⟩
    rintro rfl
    exact absurd hd (by decide)

end PhraseVault.Json
