import PhraseVault.Unicode.Normal

/-!
# Composed normal form

No step of bringing a text to normal form loses all of it: only the empty text has an empty form.
-/
namespace PhraseVault.Unicode

theorem splitHangul?_ne_some_nil (n : Nat) : splitHangul? n ≠ some [] := by
  rw [splitHangul?]
  split <;> simp

theorem splitPair?_ne_some_nil (n : Nat) : splitPair? n ≠ some [] := by
  rw [splitPair?]
  split <;> simp

theorem split?_ne_some_nil (n : Nat) : split? n ≠ some [] := by
  simp [split?, Option.or_eq_some_iff, splitHangul?_ne_some_nil, splitPair?_ne_some_nil]

theorem decompose_ne_nil (steps n : Nat) : decompose steps n ≠ [] := by
  induction steps generalizing n with
  | zero => exact List.cons_ne_nil _ _
  | succ steps ih =>
    rw [decompose]
    cases h : split? n with
    | none => exact List.cons_ne_nil _ _
    | some parts =>
      cases parts with
      | nil => exact absurd h (split?_ne_some_nil n)
      | cons first rest =>
        dsimp only
        rw [List.flatMap_cons]
        exact List.append_ne_nil_of_left_ne_nil (ih first) _

theorem length_reorder (run marks : List Mark) :
    (reorder run marks).length = run.length + marks.length := by
  induction marks generalizing run with
  | nil => simp [reorder, sortMarks]
  | cons m rest ih =>
    rw [reorder]
    split
    · simp [ih, sortMarks]
    · simp [ih]
      omega

theorem recomposeFrom_ne_nil (starter : Nat) (kept : List Nat) (last : Option Nat)
    (marks : List Mark) : recomposeFrom starter kept last marks ≠ [] := by
  induction marks generalizing starter kept last with
  | nil => exact List.cons_ne_nil _ _
  | cons m rest ih =>
    rw [recomposeFrom]
    generalize (if last.all (· < m.order) then compose? starter m.code else none) = joined
    cases joined with
    | some c => exact ih _ _ _
    | none =>
      dsimp only
      split
      · exact List.cons_ne_nil _ _
      · exact ih _ _ _

theorem recompose_ne_nil (m : Mark) (rest : List Mark) : recompose (m :: rest) ≠ [] := by
  rw [recompose]
  split
  · exact recomposeFrom_ne_nil _ _ _ _
  · exact List.cons_ne_nil _ _

/-- Taking apart and putting together again leaves something of what there was. -/
theorem recompose_reorder_ne_nil {marks : List Mark} (h : marks ≠ []) :
    recompose (reorder [] marks) ≠ [] := by
  have hlength := length_reorder [] marks
  cases hr : reorder [] marks with
  | nil =>
    rw [hr, List.length_nil, Nat.zero_add] at hlength
    exact absurd (List.length_eq_zero_iff.mp hlength.symm) h
  | cons m rest => exact recompose_ne_nil m rest

theorem normalize_eq_empty_iff {s : String} : normalize s = "" ↔ s = "" := by
  constructor
  · intro h
    rw [normalize] at h
    split at h
    · exact h
    cases hs : s.toList with
    | nil => exact String.toList_eq_nil_iff.mp hs
    | cons c cs =>
      have hparts : s.toList.flatMap (fun c => decompose decompositionSteps c.toNat) ≠ [] := by
        rw [hs, List.flatMap_cons]
        exact List.append_ne_nil_of_left_ne_nil (decompose_ne_nil _ _) _
      have hmarks := mt (List.map_eq_nil_iff (f := mark)).mp hparts
      have hchars := String.ofList_injective (h.trans String.ofList_nil.symm)
      exact absurd (List.map_eq_nil_iff.mp hchars) (recompose_reorder_ne_nil hmarks)
  · rintro rfl
    rfl

/-- Texts with one normal form are both empty or both not. -/
theorem eq_empty_iff_of_normalize_eq {p q : String} (h : normalize p = normalize q) :
    p = "" ↔ q = "" := by
  rw [← normalize_eq_empty_iff, h, normalize_eq_empty_iff]

end PhraseVault.Unicode
