import PhraseVault.Toml.Text
import Mathlib.Data.List.Basic

/-!
# Reading text values undoes writing them

A written text is taken apart into pieces: characters that stand as they are and characters that are
escaped. On many lines there are line ends and quotes besides, and no run of quotes is as long as
the closing one.
-/
namespace PhraseVault.Toml

/-- What is written for one character, other than a quote or a line end that is meant as it stands. -/
inductive Piece (quote : Char) (escapes : Bool) : Char → List Char → Prop
  | plain {c : Char} (hq : c ≠ quote) (hb : escapes = true → c ≠ '\\') (hp : isPrintable c = true) :
    Piece quote escapes c [c]
  | escaped {c e : Char} {tail : List Char} (he : escapes = true)
    (hm : e ∈ ['b', 't', 'n', 'f', 'r', '"', '\\', 'u'])
    (h : ∀ rest, escape (e :: (tail ++ rest)) = some (c, rest)) :
    Piece quote escapes c ('\\' :: e :: tail)

variable {quote : Char} {escapes : Bool}

private theorem escape_letter {e : Char} (h : e ∈ ['b', 't', 'n', 'f', 'r', '"', '\\', 'u']) :
    isSpace e = false ∧ e ≠ '\n' ∧ e ≠ '\r' := by
  simp only [List.mem_cons, List.not_mem_nil, or_false] at h
  rcases h with rfl | rfl | rfl | rfl | rfl | rfl | rfl | rfl <;> decide

theorem ne_of_isPrintable {c : Char} (h : isPrintable c = true) : c ≠ '\n' ∧ c ≠ '\r' := by
  constructor <;> rintro rfl <;> exact absurd h (by decide)

theorem newline?_eq_none {c : Char} (hn : c ≠ '\n') (hr : c ≠ '\r') (rest : List Char) :
    newline? (c :: rest) = none := by
  rw [newline?.eq_def]
  split
  · next h => exact absurd (List.cons.inj h).1 hn
  · next h => exact absurd (List.cons.inj h).1 hr
  · rfl

/-- A control is spelled by its number. -/
private theorem escape_control {c : Char} (h : isControl c = true) (rest : List Char) :
    escape ('u' :: '0' :: '0' :: upperHex (c.toNat / 16 % 16) :: upperHex (c.toNat % 16) :: rest) =
      some (c, rest) := by
  have all : ∀ n ∈ List.range 128, isControl (Char.ofNat n) = true →
      hexNumber? ['0', '0', upperHex (n / 16 % 16), upperHex (n % 16)] = some n := by
    decide +kernel
  have hn : c.toNat < 128 := by
    simp only [isControl, Bool.or_eq_true, Bool.and_eq_true, decide_eq_true_eq] at h
    omega
  have hx := all c.toNat (List.mem_range.mpr hn)
  rw [Char.ofNat_toNat] at hx
  have hs : scalar? c.toNat = some c := by
    have hv : c.toNat.isValidChar := c.valid
    rw [scalar?, if_pos hv, Char.ofNat_toNat]
  simp only [escape, codePoint?, List.length_cons, List.take_succ_cons, List.take_zero,
    List.drop_succ_cons, List.drop_zero]
  rw [if_neg (by omega), hx h]
  simp [hs]

theorem piece_escapeChar {c : Char} (hq : c ≠ '"') (hn : c ≠ '\n') :
    Piece '"' true c (escapeChar c) := by
  rw [escapeChar.eq_def]
  split
  · exact .escaped rfl (by decide) fun _ => rfl
  · exact .escaped rfl (by decide) fun _ => rfl
  · exact .escaped rfl (by decide) fun _ => rfl
  · exact .escaped rfl (by decide) fun _ => rfl
  · exact .escaped rfl (by decide) fun _ => rfl
  · next hb =>
    split
    · next hc => exact .escaped rfl (by decide) (escape_control hc)
    · next hc =>
      refine .plain hq (fun _ => hb) ?_
      simp only [isControl, isPrintable, Bool.or_eq_true, Bool.and_eq_true, decide_eq_true_eq] at hc ⊢
      by_cases ht : c = '\t'
      · exact .inl ht
      · have hne : c.toNat ≠ 0x7F := fun h => hc (.inr h)
        have hle : ¬ c.toNat ≤ 0x1F := fun h => hc (.inl ⟨⟨h, ht⟩, hn⟩)
        exact .inr ⟨by omega, hne⟩

theorem piece_writeLine (c : Char) : Piece '"' true c (writeLine c) := by
  rw [writeLine.eq_def]
  split
  · exact .escaped rfl (by decide) fun _ => rfl
  · exact .escaped rfl (by decide) fun _ => rfl
  · next hq hn => exact piece_escapeChar hq hn

/-- One character of a text on one line. -/
private theorem lineChars_piece {c : Char} {written : List Char} (h : Piece quote escapes c written)
    (hq : quote ≠ '\\') (budget : Nat) (rest : List Char) :
    lineChars quote escapes (budget + 1) (written ++ rest) =
      extend c (lineChars quote escapes budget rest) := by
  cases h with
  | plain hc hb hp =>
    rw [List.singleton_append, lineChars, if_neg hc, if_neg (by simpa using hb), if_pos hp]
  | escaped he hm h =>
    rw [List.cons_append, List.cons_append, lineChars, if_neg hq.symm, if_pos (by simp [he]), h]

private theorem lineChars_pieces {write : Char → List Char} (hq : quote ≠ '\\') {cs : List Char}
    (h : ∀ c ∈ cs, Piece quote escapes c (write c)) {budget : Nat} (hb : cs.length < budget)
    (rest : List Char) :
    lineChars quote escapes budget (cs.flatMap write ++ quote :: rest) = some (cs, rest) := by
  induction cs generalizing budget with
  | nil =>
    obtain ⟨budget, rfl⟩ := Nat.exists_eq_add_one.mpr hb
    rw [List.flatMap_nil, List.nil_append, lineChars, if_pos rfl]
  | cons c cs ih =>
    obtain ⟨budget, rfl⟩ := Nat.exists_eq_add_one.mpr (Nat.zero_lt_of_lt hb)
    rw [List.flatMap_cons, List.append_assoc, lineChars_piece (h c (by simp)) hq,
      ih (fun d hd => h d (by simp [hd])) (Nat.lt_of_succ_lt_succ hb)]
    rfl

theorem Piece.ne_nil {c : Char} {written : List Char} (h : Piece quote escapes c written) :
    1 ≤ written.length := by
  cases h <;> simp

private theorem length_le_pieces {write : Char → List Char} {cs : List Char}
    (h : ∀ c ∈ cs, Piece quote escapes c (write c)) : cs.length ≤ (cs.flatMap write).length := by
  induction cs with
  | nil => exact Nat.le_refl _
  | cons c cs ih =>
    have hc := (h c (by simp)).ne_nil
    have hcs := ih fun d hd => h d (by simp [hd])
    rw [List.flatMap_cons, List.length_append, List.length_cons]
    omega

/-- A piece does not begin with the quote. -/
private theorem Piece.exists_head {c : Char} {written : List Char}
    (h : Piece quote escapes c written) (hq : quote ≠ '\\') :
    ∃ x tail, written = x :: tail ∧ x ≠ quote ∧ x ≠ '\n' ∧ x ≠ '\r' := by
  cases h with
  | plain hc hb hp => exact ⟨_, _, rfl, hc, ne_of_isPrintable hp⟩
  | escaped he hm h => exact ⟨_, _, rfl, hq.symm, by decide, by decide⟩

/-- A text on one line, when a line end follows it. -/
theorem quoted_line {write : Char → List Char} (hq : quote ≠ '\\') (hn : quote ≠ '\n')
    {s : String} (h : ∀ c ∈ s.toList, Piece quote (hasEscapes quote) c (write c))
    (rest : List Char) :
    quoted quote (s.toList.flatMap write ++ quote :: '\n' :: rest) = some (s, '\n' :: rest) := by
  have hline : line quote (s.toList.flatMap write ++ quote :: '\n' :: rest) =
      some (s, '\n' :: rest) := by
    have hlen := length_le_pieces h
    rw [line, lineChars_pieces hq h (by rw [List.length_append, List.length_cons]; omega)]
    simp
  have hnot : ∀ a b tail, s.toList.flatMap write ++ quote :: '\n' :: rest = a :: b :: tail →
      ¬ (a = quote ∧ b = quote) := by
    intro a b tail he
    cases hs : s.toList with
    | nil =>
      rw [hs] at he
      rw [← (List.cons.inj (List.cons.inj he).2).1]
      exact fun hab => hn hab.2.symm
    | cons c cs =>
      obtain ⟨x, tail', hw, hx, -⟩ := (h c (by simp [hs])).exists_head hq
      rw [hs, List.flatMap_cons, hw] at he
      rw [← (List.cons.inj he).1]
      exact fun hab => hx hab.1
  rw [quoted.eq_def]
  split
  · next a b tail he => rw [if_neg (hnot a b tail he), ← he, hline]
  · exact hline

/-- How many quotes a text begins with. -/
def leading (quote : Char) (cs : List Char) : Nat := (cs.takeWhile (· == quote)).length

@[simp] theorem leading_self (cs : List Char) : leading quote (quote :: cs) = leading quote cs + 1 := by
  simp [leading]

theorem leading_of_ne {c : Char} (h : c ≠ quote) (cs : List Char) : leading quote (c :: cs) = 0 := by
  simp [leading, h]

/-- What is written for a text on many lines: no more than two quotes stand in a row. -/
inductive Spread (quote : Char) (escapes : Bool) : List Char → List Char → Prop
  | nil : Spread quote escapes [] []
  | piece {c : Char} {cs piece written : List Char} (h : Piece quote escapes c piece)
    (hs : Spread quote escapes cs written) : Spread quote escapes (c :: cs) (piece ++ written)
  | newline {cs written : List Char} (hs : Spread quote escapes cs written) :
    Spread quote escapes ('\n' :: cs) ('\n' :: written)
  | quote {cs written : List Char} (hr : leading quote written ≤ 1)
    (hs : Spread quote escapes cs written) :
    Spread quote escapes (quote :: cs) (quote :: written)

namespace Spread
variable {cs written : List Char}

theorem length_le (h : Spread quote escapes cs written) : cs.length ≤ written.length := by
  induction h with
  | nil => exact Nat.le_refl _
  | piece h hs ih =>
    have := h.ne_nil
    rw [List.length_cons, List.length_append]
    omega
  | newline hs ih => simpa using ih
  | quote hr hs ih => simpa using ih

/-- Quotes to the end stand for themselves. -/
private theorem eq_replicate (h : Spread quote escapes cs written) (hq : quote ≠ '\\')
    (hn : quote ≠ '\n') {k : Nat} (hw : written = List.replicate k quote) :
    cs = List.replicate k quote := by
  induction h generalizing k with
  | nil => simpa using hw
  | piece h hs ih =>
    obtain ⟨x, tail, rfl, hx, -⟩ := h.exists_head hq
    have hm : x ∈ List.replicate k quote := by simp [← hw]
    exact absurd (List.eq_of_mem_replicate hm) hx
  | newline hs ih =>
    have hm : '\n' ∈ List.replicate k quote := by simp [← hw]
    exact absurd (List.eq_of_mem_replicate hm).symm hn
  | quote hr hs ih =>
    cases k with
    | zero => cases hw
    | succ k =>
      rw [List.replicate_succ] at hw ⊢
      rw [ih (List.cons.inj hw).2]

end Spread

/-- Either the quotes at the front are all there is, or what follows does not add to them. -/
private theorem leading_append (quote : Char) (written after : List Char) :
    written = List.replicate (leading quote written) quote ∨
      leading quote (written ++ after) = leading quote written := by
  induction written with
  | nil => exact .inl rfl
  | cons c written ih =>
    by_cases hc : c = quote
    · subst hc
      rw [List.cons_append, leading_self, leading_self, List.replicate_succ]
      exact ih.imp (congrArg _) (congrArg (· + 1))
    · rw [List.cons_append, leading_of_ne hc, leading_of_ne hc]
      exact .inr rfl

private theorem leading_replicate_append {rest : List Char} (hr : leading quote rest = 0) (n : Nat) :
    leading quote (List.replicate n quote ++ rest) = n := by
  induction n with
  | zero => exact hr
  | succ n ih => rw [List.replicate_succ, List.cons_append, leading_self, ih]

private theorem closing?_eq_none {cs : List Char} (h : leading quote cs ≤ 2) :
    closing? quote cs = none := by
  rw [leading] at h
  simp only [closing?]
  rw [if_neg (by omega)]

private theorem closing?_quotes {n : Nat} (hn : n ≤ 2) {rest : List Char}
    (hr : leading quote rest = 0) :
    closing? quote (List.replicate n quote ++ quote :: quote :: quote :: rest) =
      some (List.replicate n quote, rest) := by
  have hsplit : List.replicate n quote ++ quote :: quote :: quote :: rest =
      List.replicate (n + 3) quote ++ rest := by
    rw [List.replicate_add, List.append_assoc]
    rfl
  have hl := leading_replicate_append hr (n + 3)
  have hmin : min (n + 3 - 3) 2 = n := by omega
  rw [leading] at hl
  simp only [hsplit, closing?, hl, hmin]
  rw [if_pos (by omega), List.drop_left' (by simp)]

/-- One character of a text on many lines. -/
private theorem blockChars_piece {c : Char} {piece : List Char} (h : Piece quote escapes c piece)
    (hq : quote ≠ '\\') (budget : Nat) (rest : List Char) :
    blockChars quote escapes (budget + 1) (piece ++ rest) =
      extend c (blockChars quote escapes budget rest) := by
  cases h with
  | plain hc hb hp =>
    obtain ⟨hn, hr⟩ := ne_of_isPrintable hp
    rw [List.singleton_append, blockChars, if_neg hc, if_neg (by simpa using hb),
      newline?_eq_none hn hr]
    simp only
    rw [if_pos hp]
  | @escaped e _ he hm h =>
    obtain ⟨hs, hn, hr⟩ := escape_letter hm
    have hl : ∀ after, lineContinuation? (e :: after) = none := fun after => by
      rw [lineContinuation?, List.dropWhile_cons_of_neg (by simp [hs]), newline?_eq_none hn hr]
      rfl
    rw [List.cons_append, List.cons_append, blockChars, if_neg hq.symm, if_pos (by simp [he]), hl, h]

/-- A text on many lines up to its closing quotes. -/
private theorem blockChars_spread {cs written : List Char} (h : Spread quote escapes cs written)
    (hq : quote ≠ '\\') (hn : quote ≠ '\n') {rest : List Char} (hr : leading quote rest = 0)
    {budget : Nat} (hb : cs.length < budget) :
    blockChars quote escapes budget (written ++ quote :: quote :: quote :: rest) =
      some (cs, rest) := by
  induction h generalizing budget with
  | nil =>
    obtain ⟨budget, rfl⟩ := Nat.exists_eq_add_one.mpr hb
    have hc := closing?_quotes (Nat.zero_le 2) hr
    rw [List.replicate_zero, List.nil_append] at hc
    rw [List.nil_append, blockChars, if_pos rfl, hc]
  | piece h hs ih =>
    obtain ⟨budget, rfl⟩ := Nat.exists_eq_add_one.mpr (Nat.zero_lt_of_lt hb)
    rw [List.append_assoc, blockChars_piece h hq, ih (Nat.lt_of_succ_lt_succ hb)]
    rfl
  | newline hs ih =>
    obtain ⟨budget, rfl⟩ := Nat.exists_eq_add_one.mpr (Nat.zero_lt_of_lt hb)
    rw [List.cons_append, blockChars, if_neg hn.symm, if_neg (by simp)]
    simp only [newline?]
    rw [ih (Nat.lt_of_succ_lt_succ hb)]
    rfl
  | @quote cs written hrun hs ih =>
    obtain ⟨budget, rfl⟩ := Nat.exists_eq_add_one.mpr (Nat.zero_lt_of_lt hb)
    rw [List.cons_append, blockChars, if_pos rfl]
    have happend := leading_append quote written (quote :: quote :: quote :: rest)
    rcases happend with hall | hmore
    · -- only quotes are left, and the closing ones follow them directly
      have hcs := hs.eq_replicate hq hn hall
      have hle : leading quote written + 1 ≤ 2 := by omega
      have hc := closing?_quotes hle hr
      rw [List.replicate_succ, List.cons_append, ← hall] at hc
      rw [hc, hcs, ← hall]
    · rw [closing?_eq_none (by rw [leading_self, hmore]; omega)]
      simp only
      rw [ih (Nat.lt_of_succ_lt_succ hb)]
      rfl

private theorem newline?_spread {cs written : List Char} (h : Spread quote escapes cs written)
    (hq : quote ≠ '\\') (hn : quote ≠ '\n') (hr : quote ≠ '\r') (hcs : '\n' ∉ cs)
    (rest : List Char) : newline? (written ++ quote :: rest) = none := by
  cases h with
  | nil => exact newline?_eq_none hn hr rest
  | piece h hs =>
    obtain ⟨x, tail, rfl, -, hx, hx'⟩ := h.exists_head hq
    exact newline?_eq_none hx hx' _
  | newline hs => simp at hcs
  | quote _ hs => exact newline?_eq_none hn hr _

/-- A text on many lines, when a line end follows it. -/
theorem quoted_block {s : String} {written : List Char}
    (h : Spread quote (hasEscapes quote) s.toList written) (hq : quote ≠ '\\') (hn : quote ≠ '\n')
    (hr : quote ≠ '\r') (rest : List Char) :
    quoted quote (quote :: quote :: (opening s.toList ++ written ++
      [quote, quote, quote] ++ '\n' :: rest)) = some (s, '\n' :: rest) := by
  have hafter : leading quote ('\n' :: rest) = 0 := leading_of_ne hn.symm rest
  have hopen : (newline? (opening s.toList ++ (written ++ quote :: quote :: quote :: '\n' :: rest))).getD
      (opening s.toList ++ (written ++ quote :: quote :: quote :: '\n' :: rest)) =
        written ++ quote :: quote :: quote :: '\n' :: rest := by
    rw [opening]
    by_cases hc : s.toList.contains '\n' = true
    · rw [if_pos hc]
      rfl
    · rw [if_neg hc, List.nil_append, newline?_spread h hq hn hr (by simpa using hc)]
      rfl
  have hbudget : s.toList.length <
      (written ++ quote :: quote :: quote :: '\n' :: rest).length + 1 := by
    have := h.length_le
    rw [List.length_append]
    omega
  rw [quoted, if_pos ⟨rfl, rfl⟩, block]
  simp only [List.append_assoc, List.cons_append, List.nil_append] at hopen ⊢
  rw [hopen, blockChars_spread h hq hn hafter hbudget]
  simp

private theorem leading_writeBlock {run : Nat} (h : run ≤ 2) (cs : List Char) :
    leading '"' (writeBlock run cs) + run ≤ 2 := by
  induction cs generalizing run with
  | nil => simpa [writeBlock, leading] using h
  | cons c cs ih =>
    rw [writeBlock]
    by_cases hq : c = '"'
    · rw [if_pos hq]
      by_cases hr : run = 2
      · rw [if_pos hr, leading_of_ne (by decide)]
        omega
      · rw [if_neg hr, leading_self]
        have hle : run + 1 ≤ 2 := by omega
        have hmore := ih hle
        omega
    · rw [if_neg hq]
      by_cases hn : c = '\n'
      · rw [if_pos hn, leading_of_ne (by decide)]
        omega
      · obtain ⟨x, tail, he, hx, -⟩ := (piece_escapeChar hq hn).exists_head (by decide)
        rw [if_neg hn, he, List.cons_append, leading_of_ne hx]
        omega

theorem spread_writeBlock {run : Nat} (h : run ≤ 2) (cs : List Char) :
    Spread '"' true cs (writeBlock run cs) := by
  induction cs generalizing run with
  | nil => exact .nil
  | cons c cs ih =>
    rw [writeBlock]
    by_cases hq : c = '"'
    · subst hq
      rw [if_pos rfl]
      by_cases hr : run = 2
      · rw [if_pos hr]
        have hquote : Piece '"' true '"' ['\\', '"'] :=
          .escaped rfl (by decide) fun _ => rfl
        exact .piece hquote (ih (Nat.zero_le 2))
      · have hle : run + 1 ≤ 2 := by omega
        have hl := leading_writeBlock hle cs
        rw [if_neg hr]
        exact .quote (by omega) (ih (by omega))
    · rw [if_neg hq]
      by_cases hn : c = '\n'
      · subst hn
        rw [if_pos rfl]
        exact .newline (ih (Nat.zero_le 2))
      · rw [if_neg hn]
        exact .piece (piece_escapeChar hq hn) (ih (Nat.zero_le 2))

/-- The longest run so far, and the one at the end. -/
private def runStep (x : Char) (r : Nat × Nat) (c : Char) : Nat × Nat :=
  if c = x then (max r.1 (r.2 + 1), r.2 + 1) else (r.1, 0)

private theorem longestRun_eq (x : Char) (cs : List Char) :
    longestRun x cs = (cs.foldl (runStep x) (0, 0)).1 :=
  rfl

private theorem foldl_runStep_mono {x : Char} {a b : Nat × Nat} (h₁ : a.1 ≤ b.1) (h₂ : a.2 ≤ b.2)
    (cs : List Char) : (cs.foldl (runStep x) a).1 ≤ (cs.foldl (runStep x) b).1 := by
  induction cs generalizing a b with
  | nil => exact h₁
  | cons c cs ih =>
    rw [List.foldl_cons, List.foldl_cons]
    apply ih <;> simp only [runStep] <;> split <;> simp only <;> omega

private theorem best_le_foldl {x : Char} (r : Nat × Nat) (cs : List Char) :
    r.1 ≤ (cs.foldl (runStep x) r).1 := by
  induction cs generalizing r with
  | nil => exact Nat.le_refl _
  | cons c cs ih =>
    have hstep : r.1 ≤ (runStep x r c).1 := by
      simp only [runStep]
      split <;> simp only <;> omega
    exact Nat.le_trans hstep (ih _)

private theorem leading_le_foldl {x : Char} {r : Nat × Nat} (h : r.2 ≤ r.1) (cs : List Char) :
    r.2 + leading x cs ≤ (cs.foldl (runStep x) r).1 := by
  induction cs generalizing r with
  | nil => simpa [leading] using h
  | cons c cs ih =>
    by_cases hc : c = x
    · subst hc
      have := ih (r := runStep c r c) (by simp only [runStep, if_true]; omega)
      simp only [runStep, if_true, leading_self, List.foldl_cons] at this ⊢
      omega
    · rw [leading_of_ne hc]
      exact Nat.le_trans h (best_le_foldl r (c :: cs))

theorem leading_le_longestRun (x : Char) (cs : List Char) : leading x cs ≤ longestRun x cs := by
  simpa [longestRun_eq] using leading_le_foldl (x := x) (Nat.le_refl (0, 0).2) cs

theorem longestRun_le_cons (x c : Char) (cs : List Char) :
    longestRun x cs ≤ longestRun x (c :: cs) := by
  rw [longestRun_eq, longestRun_eq, List.foldl_cons]
  exact foldl_runStep_mono (Nat.zero_le _) (Nat.zero_le _) cs

theorem not_mem_of_longestRun {x : Char} {cs : List Char} (h : longestRun x cs = 0) : x ∉ cs := by
  induction cs with
  | nil => simp
  | cons c cs ih =>
    have hle := leading_le_longestRun x (c :: cs)
    have hcs := longestRun_le_cons x c cs
    rw [List.mem_cons, not_or]
    refine ⟨?_, ih (by omega)⟩
    rintro rfl
    rw [leading_self] at hle
    omega

private theorem isPrintable_of_not_control {c : Char} (h : isControl c = false) (hn : c ≠ '\n') :
    isPrintable c = true := by
  simp only [isControl, Bool.or_eq_false_iff, Bool.and_eq_false_iff, decide_eq_false_iff_not] at h
  simp only [isPrintable, Bool.or_eq_true, Bool.and_eq_true, decide_eq_true_eq]
  by_cases ht : c = '\t'
  · exact .inl ht
  · have hle : ¬ c.toNat ≤ 0x1F := fun hle => by simp_all
    exact .inr ⟨by omega, h.2⟩

/-- Between apostrophes a text stands as it is. -/
theorem spread_raw {cs : List Char} (hc : ∀ c ∈ cs, isControl c = false)
    (hr : longestRun '\'' cs ≤ 2) : Spread '\'' false cs cs := by
  induction cs with
  | nil => exact .nil
  | cons c cs ih =>
    have htail := longestRun_le_cons '\'' c cs
    have hs := ih (fun d hd => hc d (by simp [hd])) (by omega)
    by_cases hq : c = '\''
    · subst hq
      have hl := leading_le_longestRun '\'' ('\'' :: cs)
      rw [leading_self] at hl
      exact .quote (by omega) hs
    by_cases hn : c = '\n'
    · subst hn
      exact .newline hs
    · exact .piece (.plain hq (by simp) (isPrintable_of_not_control (hc c (by simp)) hn)) hs

private theorem of_line_false {cs : List Char} (h : Form.of cs = .line false) :
    (∀ c ∈ cs, isControl c = false) ∧ longestRun '\'' cs = 0 ∧ '\n' ∉ cs := by
  simp only [Form.of] at h
  split at h
  · cases h
  split at h
  · next hc => simpa [and_assoc] using hc
  split at h
  · cases h
  split at h
  · cases h
  split at h <;> cases h

private theorem of_block_false {cs : List Char} (h : Form.of cs = .block false) :
    (∀ c ∈ cs, isControl c = false) ∧ longestRun '\'' cs ≤ 2 := by
  simp only [Form.of] at h
  split at h
  · cases h
  split at h
  · cases h
  split at h
  · cases h
  split at h
  · next hc => simpa using hc
  split at h <;> cases h

/-- A written text is read from its first quote on, when a line end follows it. -/
theorem exists_quoted_writeText (s : String) (rest : List Char) : ∃ quote body,
    (quote = '"' ∨ quote = '\'') ∧ writeText s ++ '\n' :: rest = quote :: body ∧
      quoted quote body = some (s, '\n' :: rest) := by
  rw [writeText]
  cases hf : Form.of s.toList with
  | line escapes =>
    cases escapes with
    | true =>
      exact ⟨'"', _, .inl rfl, by simp, quoted_line (by decide) (by decide)
        (fun c _ => piece_writeLine c) rest⟩
    | false =>
      obtain ⟨hc, hr, hn⟩ := of_line_false hf
      have hpieces : ∀ c ∈ s.toList, Piece '\'' false c [c] := fun c hm =>
        .plain (fun h => not_mem_of_longestRun hr (h ▸ hm)) (by simp)
          (isPrintable_of_not_control (hc c hm) fun h => hn (h ▸ hm))
      exact ⟨'\'', _, .inr rfl, by simp, quoted_line (by decide) (by decide) hpieces rest⟩
  | block escapes =>
    cases escapes with
    | true =>
      exact ⟨'"', _, .inl rfl, by simp, quoted_block (spread_writeBlock (Nat.zero_le 2) _)
        (by decide) (by decide) (by decide) rest⟩
    | false =>
      obtain ⟨hc, hr⟩ := of_block_false hf
      exact ⟨'\'', _, .inr rfl, by simp, quoted_block (spread_raw hc hr)
        (by decide) (by decide) (by decide) rest⟩

end PhraseVault.Toml
