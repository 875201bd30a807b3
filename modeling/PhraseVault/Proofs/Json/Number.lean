import PhraseVault.Json.Number
import Mathlib.Data.List.Basic

/-!
# Reading integers undoes writing them
-/
namespace PhraseVault.Json

private theorem isDigit_digitChar {d : Nat} (h : d < 10) : isDigit (ascii d.digitChar) = true := by
  have all : ∀ d ∈ List.range 10, isDigit (ascii d.digitChar) = true := by decide
  exact all d (List.mem_range.mpr h)

private theorem digitValue_digitChar {d : Nat} (h : d < 10) : digitValue (ascii d.digitChar) = d := by
  have all : ∀ d ∈ List.range 10, digitValue (ascii d.digitChar) = d := by decide
  exact all d (List.mem_range.mpr h)

private theorem digitChar_ne_zero {d : Nat} (h : d < 10) (h₀ : 0 < d) :
    ascii d.digitChar ≠ ascii '0' := by
  have all : ∀ d ∈ List.range 10, 0 < d → ascii d.digitChar ≠ ascii '0' := by decide
  exact all d (List.mem_range.mpr h) h₀

private theorem writeNat_of_lt {n : Nat} (h : n < 10) : writeNat n = [ascii n.digitChar] := by
  rw [writeNat, Nat.toDigits_of_lt_base h]
  rfl

private theorem writeNat_of_le {n : Nat} (h : 10 ≤ n) :
    writeNat n = writeNat (n / 10) ++ [ascii (n % 10).digitChar] := by
  rw [writeNat, Nat.toDigits_of_base_le (by decide) h, List.map_append]
  rfl

theorem isDigit_writeNat (n : Nat) : ∀ b ∈ writeNat n, isDigit b = true := by
  induction n using Nat.strongRecOn with
  | ind n ih =>
    intro b hb
    by_cases h : n < 10
    · rw [writeNat_of_lt h, List.mem_singleton] at hb
      rw [hb]
      exact isDigit_digitChar h
    · rw [writeNat_of_le (by omega)] at hb
      rcases List.mem_append.mp hb with hb | hb
      · exact ih (n / 10) (by omega) b hb
      · rw [List.mem_singleton.mp hb]
        exact isDigit_digitChar (by omega)

/-- The number that digits spell. -/
private def spelled (start : Nat) (digits : Bytes) : Nat :=
  digits.foldl (fun n d => n * 10 + digitValue d) start

private theorem spelled_writeNat (n : Nat) : spelled 0 (writeNat n) = n := by
  induction n using Nat.strongRecOn with
  | ind n ih =>
    by_cases h : n < 10
    · rw [writeNat_of_lt h, spelled, List.foldl_cons, List.foldl_nil, digitValue_digitChar h]
      omega
    · have hi := ih (n / 10) (by omega)
      rw [spelled] at hi
      rw [writeNat_of_le (by omega), spelled, List.foldl_append, hi, List.foldl_cons,
        List.foldl_nil, digitValue_digitChar (by omega)]
      omega

private theorem le_spelled (start : Nat) (digits : Bytes) : start ≤ spelled start digits := by
  induction digits generalizing start with
  | nil => exact Nat.le_refl _
  | cons d digits ih =>
    have := ih (start * 10 + digitValue d)
    simp only [spelled, List.foldl_cons] at this ⊢
    omega

/-- All digits are taken when the number they spell fits into 64 bits. -/
private theorem absorb_of_lt {start : Nat} {digits : Bytes} (h : spelled start digits < wordLimit) :
    absorb start digits = (spelled start digits, digits.length) := by
  induction digits generalizing start with
  | nil => rfl
  | cons d digits ih =>
    have hs : spelled start (d :: digits) = spelled (start * 10 + digitValue d) digits := rfl
    rw [hs] at h
    have hn : start * 10 + digitValue d < wordLimit :=
      Nat.lt_of_le_of_lt (le_spelled _ _) h
    simp only [absorb, if_pos hn, ih h, hs, List.length_cons]

/-- No number goes on at the front of these bytes. -/
def EndsNumber (rest : Bytes) : Prop :=
  ∃ b tail, rest = b :: tail ∧ isDigit b = false ∧
    b ≠ ascii '.' ∧ b ≠ ascii 'e' ∧ b ≠ ascii 'E'

theorem endsNumber_comma (rest : Bytes) : EndsNumber (ascii ',' :: rest) :=
  ⟨_, _, rfl, by decide, by decide, by decide, by decide⟩

theorem endsNumber_bracket (rest : Bytes) : EndsNumber (ascii ']' :: rest) :=
  ⟨_, _, rfl, by decide, by decide, by decide, by decide⟩

theorem endsNumber_brace (rest : Bytes) : EndsNumber (ascii '}' :: rest) :=
  ⟨_, _, rfl, by decide, by decide, by decide, by decide⟩

/-- No digit stands at the front of these bytes. -/
def EndsDigits (rest : Bytes) : Prop := ∃ b tail, rest = b :: tail ∧ isDigit b = false

theorem EndsNumber.endsDigits {rest : Bytes} (h : EndsNumber rest) : EndsDigits rest := by
  obtain ⟨b, tail, hr, hb, -⟩ := h
  exact ⟨b, tail, hr, hb⟩

theorem takeWhile_digits {ds rest : Bytes} (hd : ∀ b ∈ ds, isDigit b = true)
    (hr : EndsDigits rest) :
    (ds ++ rest).takeWhile isDigit = ds ∧ (ds ++ rest).dropWhile isDigit = rest := by
  obtain ⟨b, tail, rfl, hb⟩ := hr
  constructor
  · rw [List.takeWhile_append_of_pos hd, List.takeWhile_cons_of_neg (by simp [hb]), List.append_nil]
  · rw [List.dropWhile_append_of_pos hd, List.dropWhile_cons_of_neg (by simp [hb])]

theorem writeNat_ne_nil (n : Nat) : writeNat n ≠ [] := by
  rw [writeNat, ne_eq, List.map_eq_nil_iff]
  exact Nat.toDigits_ne_nil

/-- Only zero itself starts with a zero. -/
private theorem head_writeNat {n : Nat} (h : 0 < n) :
    ∃ b tail, writeNat n = b :: tail ∧ b ≠ ascii '0' := by
  induction n using Nat.strongRecOn with
  | ind n ih =>
    by_cases hn : n < 10
    · exact ⟨_, _, writeNat_of_lt hn, digitChar_ne_zero hn h⟩
    · obtain ⟨b, tail, hb, hz⟩ := ih (n / 10) (by omega) (by omega)
      exact ⟨b, tail ++ [ascii (n % 10).digitChar], by rw [writeNat_of_le (by omega), hb]; rfl, hz⟩

theorem isMarker_of_ne {c : Char} {b : UInt8} (h : b ≠ ascii c) (tail : Bytes) :
    isMarker c (b :: tail) = false :=
  beq_eq_false_iff_ne.mpr fun he => h (Option.some.inj he)

private theorem no_leading_zero (n : Nat) :
    (isMarker '0' (writeNat n) && decide (1 < (writeNat n).length)) = false := by
  by_cases h : 0 < n
  · obtain ⟨b, tail, hb, hz⟩ := head_writeNat h
    rw [hb, isMarker_of_ne hz, Bool.false_and]
  · have hn : n = 0 := by omega
    rw [hn]
    decide

theorem readNumber_writeNat {n : Nat} (negative : Bool) (h : n < wordLimit) {rest : Bytes}
    (hr : EndsNumber rest) :
    readNumber negative (writeNat n ++ rest) = .ok (integerOrReal negative n, rest) := by
  obtain ⟨ht, hd⟩ := takeWhile_digits (isDigit_writeNat n) hr.endsDigits
  obtain ⟨b, tail, rfl, hb, hp, he, hE⟩ := hr
  have hne : (writeNat n ++ b :: tail).isEmpty = false := by simp
  have hdne : (writeNat n).isEmpty = false := by simpa using writeNat_ne_nil n
  have habs : absorb 0 (writeNat n) = (n, (writeNat n).length) := by
    rw [absorb_of_lt (by rwa [spelled_writeNat]), spelled_writeNat]
  have hpoint : isMarker '.' (b :: tail) = false := isMarker_of_ne hp tail
  have hexp : startsExponent (b :: tail) = false := by
    rw [startsExponent, isMarker_of_ne he, isMarker_of_ne hE, Bool.or_false]
  simp only [readNumber, ht, hd, hne, hdne, no_leading_zero, habs, hpoint, hexp]
  simp [pure, Except.pure]

end PhraseVault.Json
