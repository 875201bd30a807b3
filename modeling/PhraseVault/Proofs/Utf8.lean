import PhraseVault.Text.Utf8
import Mathlib.Data.List.Basic

/-!
# Reading UTF-8 undoes writing it

A written character is one whole piece, so written text reads back from both readers. Conversely the
strict reader accepts nothing but written text.
-/
namespace PhraseVault.Utf8

theorem toNat_ofNat_of_lt {n : Nat} (h : n < 256) : (UInt8.ofNat n).toNat = n := by
  simp only [UInt8.toNat_ofNat']
  omega

private theorem toNat_bounds (c : Char) :
    c.toNat < 0xD800 ∨ 0xE000 ≤ c.toNat ∧ c.toNat < 0x110000 := by
  have h : c.toNat.isValidChar := c.valid
  simp only [Nat.isValidChar] at h
  omega

private theorem toNat_ofNat {n : Nat} (h : n < 0xD800 ∨ 0xE000 ≤ n ∧ n < 0x110000) :
    (Char.ofNat n).toNat = n := by
  have hv : n.isValidChar := by
    simp only [Nat.isValidChar]
    omega
  rw [Char.ofNat, dif_pos hv]
  rfl

theorem piecesFrom_cons (s : State) (b : UInt8) (rest : Bytes) :
    piecesFrom s (b :: rest) = (next s b.toNat).1 ++ piecesFrom (next s b.toNat).2 rest := by
  cases s <;> rfl

private theorem next_last {b low high : Nat} (seen value : Nat) (h : low ≤ b ∧ b < high) :
    next (.inside seen 1 value low high) b =
      ([.char (Char.ofNat (value * 64 + (b - 0x80)))], .start) := by
  simp only [next, if_pos h, if_true]

private theorem next_more {b low high : Nat} (seen missing value : Nat) (h : low ≤ b ∧ b < high) :
    next (.inside seen (missing + 2) value low high) b =
      ([], .inside (seen + 1) (missing + 1) (value * 64 + (b - 0x80)) 0x80 0xC0) := by
  simp only [next, if_pos h]
  rw [if_neg (by omega)]
  rfl

private theorem begin_ascii {b : Nat} (h : b < 0x80) :
    begin b = ([.char (Char.ofNat b)], .start) := by
  rw [begin, if_pos h]

private theorem begin_two {b : Nat} (h : 0xC2 ≤ b ∧ b < 0xE0) :
    begin b = ([], .inside 1 1 (b - 0xC0) 0x80 0xC0) := by
  rw [begin, if_neg (by omega), if_neg (by omega), if_pos h.2]

private theorem begin_three {b : Nat} (h : 0xE0 ≤ b ∧ b < 0xF0) :
    begin b = ([], .inside 1 2 (b - 0xE0) (if b = 0xE0 then 0xA0 else 0x80)
      (if b = 0xED then 0xA0 else 0xC0)) := by
  rw [begin, if_neg (by omega), if_neg (by omega), if_neg (by omega), if_pos h.2]

private theorem begin_four {b : Nat} (h : 0xF0 ≤ b ∧ b < 0xF5) :
    begin b = ([], .inside 1 3 (b - 0xF0) (if b = 0xF0 then 0x90 else 0x80)
      (if b = 0xF4 then 0x90 else 0xC0)) := by
  rw [begin, if_neg (by omega), if_neg (by omega), if_neg (by omega), if_neg (by omega), if_pos h.2]

/-- A written character is read as one whole piece, whatever follows it. -/
theorem pieces_encodeChar_append (c : Char) (rest : Bytes) :
    pieces (encodeChar c ++ rest) = .char c :: pieces rest := by
  have hc := toNat_bounds c
  have hv : Char.ofNat c.toNat = c := Char.ofNat_toNat c
  generalize hn : c.toNat = n at hc hv
  simp only [encodeChar, hn]
  split
  · have h₀ : (UInt8.ofNat n).toNat = n := toNat_ofNat_of_lt (by omega)
    simp only [pieces, List.cons_append, List.nil_append, piecesFrom_cons, next, h₀]
    rw [begin_ascii (by omega), hv]
    rfl
  split
  · have h₀ : (UInt8.ofNat (0xC0 + n / 64)).toNat = 0xC0 + n / 64 := toNat_ofNat_of_lt (by omega)
    have h₁ : (UInt8.ofNat (0x80 + n % 64)).toNat = 0x80 + n % 64 := toNat_ofNat_of_lt (by omega)
    have hs : (0xC0 + n / 64 - 0xC0) * 64 + (0x80 + n % 64 - 0x80) = n := by omega
    simp only [pieces, List.cons_append, List.nil_append, piecesFrom_cons, h₀, h₁]
    rw [next, begin_two (by omega), next_last _ _ (by omega), hs, hv]
    rfl
  split
  · have h₀ : (UInt8.ofNat (0xE0 + n / 4096)).toNat = 0xE0 + n / 4096 :=
      toNat_ofNat_of_lt (by omega)
    have h₁ : (UInt8.ofNat (0x80 + n / 64 % 64)).toNat = 0x80 + n / 64 % 64 :=
      toNat_ofNat_of_lt (by omega)
    have h₂ : (UInt8.ofNat (0x80 + n % 64)).toNat = 0x80 + n % 64 := toNat_ofNat_of_lt (by omega)
    have hs : ((0xE0 + n / 4096 - 0xE0) * 64 + (0x80 + n / 64 % 64 - 0x80)) * 64 +
        (0x80 + n % 64 - 0x80) = n := by omega
    simp only [pieces, List.cons_append, List.nil_append, piecesFrom_cons, h₀, h₁, h₂]
    rw [next, begin_three (by omega), next_more 1 0 _ (by split <;> split <;> omega),
      next_last _ _ (by omega), hs, hv]
    rfl
  · have h₀ : (UInt8.ofNat (0xF0 + n / 262144)).toNat = 0xF0 + n / 262144 :=
      toNat_ofNat_of_lt (by omega)
    have h₁ : (UInt8.ofNat (0x80 + n / 4096 % 64)).toNat = 0x80 + n / 4096 % 64 :=
      toNat_ofNat_of_lt (by omega)
    have h₂ : (UInt8.ofNat (0x80 + n / 64 % 64)).toNat = 0x80 + n / 64 % 64 :=
      toNat_ofNat_of_lt (by omega)
    have h₃ : (UInt8.ofNat (0x80 + n % 64)).toNat = 0x80 + n % 64 := toNat_ofNat_of_lt (by omega)
    have hs : (((0xF0 + n / 262144 - 0xF0) * 64 + (0x80 + n / 4096 % 64 - 0x80)) * 64 +
        (0x80 + n / 64 % 64 - 0x80)) * 64 + (0x80 + n % 64 - 0x80) = n := by omega
    simp only [pieces, List.cons_append, List.nil_append, piecesFrom_cons, h₀, h₁, h₂, h₃]
    rw [next, begin_four (by omega), next_more 1 1 _ (by split <;> split <;> omega),
      next_more 2 0 _ (by omega), next_last _ _ (by omega), hs, hv]
    rfl

theorem pieces_flatMap_append (cs : List Char) (rest : Bytes) :
    pieces (cs.flatMap encodeChar ++ rest) = cs.map .char ++ pieces rest := by
  induction cs with
  | nil => rfl
  | cons c cs ih =>
    rw [List.flatMap_cons, List.append_assoc, pieces_encodeChar_append, ih]
    rfl

theorem pieces_encode (s : String) : pieces (encode s) = s.toList.map .char := by
  simpa [encode, pieces, piecesFrom] using pieces_flatMap_append s.toList []

private theorem join_map_char (index : Nat) (cs : List Char) :
    join index (cs.map .char) = .ok cs := by
  induction cs generalizing index with
  | nil => rfl
  | cons c cs ih =>
    rw [List.map_cons, join, ih]
    rfl

@[simp] theorem decode_encode (s : String) : decode (encode s) = .ok s := by
  rw [decode, decodeChars, pieces_encode, join_map_char]
  exact congrArg Except.ok (String.ofList_toList)

@[simp] theorem decodeLossy_encode (s : String) : decodeLossy (encode s) = s := by
  have h : Piece.lenient ∘ Piece.char = id := rfl
  rw [decodeLossy, pieces_encode, List.map_map, h, List.map_id, String.ofList_toList]

theorem encode_injective {s t : String} (h : encode s = encode t) : s = t := by
  have hs := decode_encode s
  rw [h, decode_encode] at hs
  exact (Except.ok.inj hs).symm

/-- What the bytes of a character that are still due add to its number. -/
private def extend (value : Nat) (tail : Bytes) : Nat :=
  tail.foldl (fun v b => v * 64 + (b.toNat - 0x80)) value

/-- A character read from inside ends after the missing bytes, each of which continues it. -/
private theorem inside_eq_char {seen missing value low high : Nat} {b : Bytes} {c : Char}
    {ps : List Piece} (h : piecesFrom (.inside seen (missing + 1) value low high) b = .char c :: ps) :
    ∃ first tail rest, b = first :: tail ++ rest ∧ tail.length = missing ∧
      (low ≤ first.toNat ∧ first.toNat < high) ∧
      (∀ t ∈ tail, 0x80 ≤ t.toNat ∧ t.toNat < 0xC0) ∧
      c = Char.ofNat (extend value (first :: tail)) ∧ pieces rest = ps := by
  induction missing generalizing seen value low high b with
  | zero =>
    cases b with
    | nil => cases h
    | cons x b =>
      rw [piecesFrom_cons] at h
      by_cases hx : low ≤ x.toNat ∧ x.toNat < high
      · rw [next_last _ _ hx] at h
        obtain ⟨h₁, h₂⟩ := List.cons.inj h
        refine ⟨x, [], b, rfl, rfl, hx, by simp, ?_, h₂⟩
        simpa only [extend, List.foldl_cons, List.foldl_nil] using (Piece.char.inj h₁).symm
      · simp [next, if_neg hx] at h
  | succ missing ih =>
    cases b with
    | nil => cases h
    | cons x b =>
      rw [piecesFrom_cons] at h
      by_cases hx : low ≤ x.toNat ∧ x.toNat < high
      · rw [next_more _ _ _ hx] at h
        obtain ⟨y, tail, rest, rfl, hl, hy, ht, hc, hp⟩ := ih h
        refine ⟨x, y :: tail, rest, rfl, by simp [hl], hx, ?_, ?_, hp⟩
        · intro t hm
          rcases List.mem_cons.mp hm with rfl | hm
          · exact hy
          · exact ht t hm
        · simpa only [extend, List.foldl_cons] using hc
      · simp [next, if_neg hx] at h

private theorem encodeChar_ofNat {n : Nat} (h : n < 0xD800 ∨ 0xE000 ≤ n ∧ n < 0x110000) :
    encodeChar (Char.ofNat n) =
      if n < 0x80 then [UInt8.ofNat n]
      else if n < 0x800 then [UInt8.ofNat (0xC0 + n / 64), UInt8.ofNat (0x80 + n % 64)]
      else if n < 0x10000 then
        [UInt8.ofNat (0xE0 + n / 4096), UInt8.ofNat (0x80 + n / 64 % 64),
          UInt8.ofNat (0x80 + n % 64)]
      else
        [UInt8.ofNat (0xF0 + n / 262144), UInt8.ofNat (0x80 + n / 4096 % 64),
          UInt8.ofNat (0x80 + n / 64 % 64), UInt8.ofNat (0x80 + n % 64)] := by
  simp only [encodeChar, toNat_ofNat h]

private theorem ofNat_eq {n : Nat} {b : UInt8} (h : n = b.toNat) : UInt8.ofNat n = b := by
  rw [h, UInt8.ofNat_toNat]

private theorem encodeChar_two {a b : UInt8} (ha : 0xC2 ≤ a.toNat ∧ a.toNat < 0xE0)
    (hb : 0x80 ≤ b.toNat ∧ b.toNat < 0xC0) :
    encodeChar (Char.ofNat (extend (a.toNat - 0xC0) [b])) = [a, b] := by
  simp only [extend, List.foldl_cons, List.foldl_nil]
  rw [encodeChar_ofNat (by omega), if_neg (by omega), if_pos (by omega),
    ofNat_eq (b := a) (by omega), ofNat_eq (b := b) (by omega)]

private theorem encodeChar_three {a b c : UInt8} (ha : 0xE0 ≤ a.toNat ∧ a.toNat < 0xF0)
    (hb : (if a.toNat = 0xE0 then 0xA0 else 0x80) ≤ b.toNat ∧
      b.toNat < if a.toNat = 0xED then 0xA0 else 0xC0)
    (hc : 0x80 ≤ c.toNat ∧ c.toNat < 0xC0) :
    encodeChar (Char.ofNat (extend (a.toNat - 0xE0) [b, c])) = [a, b, c] := by
  simp only [extend, List.foldl_cons, List.foldl_nil]
  have hlow : 0x80 ≤ b.toNat ∧ b.toNat < 0xC0 := by split at hb <;> split at hb <;> omega
  have hmin : 0x800 ≤ ((a.toNat - 0xE0) * 64 + (b.toNat - 0x80)) * 64 + (c.toNat - 0x80) := by
    split at hb <;> omega
  have hgap : a.toNat = 0xED → b.toNat < 0xA0 := by
    intro h
    rw [if_pos h] at hb
    exact hb.2
  rw [encodeChar_ofNat (by omega), if_neg (by omega), if_neg (by omega), if_pos (by omega),
    ofNat_eq (b := a) (by omega), ofNat_eq (b := b) (by omega), ofNat_eq (b := c) (by omega)]

private theorem encodeChar_four {a b c d : UInt8} (ha : 0xF0 ≤ a.toNat ∧ a.toNat < 0xF5)
    (hb : (if a.toNat = 0xF0 then 0x90 else 0x80) ≤ b.toNat ∧
      b.toNat < if a.toNat = 0xF4 then 0x90 else 0xC0)
    (hc : 0x80 ≤ c.toNat ∧ c.toNat < 0xC0) (hd : 0x80 ≤ d.toNat ∧ d.toNat < 0xC0) :
    encodeChar (Char.ofNat (extend (a.toNat - 0xF0) [b, c, d])) = [a, b, c, d] := by
  simp only [extend, List.foldl_cons, List.foldl_nil]
  have hlow : 0x80 ≤ b.toNat ∧ b.toNat < 0xC0 := by split at hb <;> split at hb <;> omega
  have hmin : 0x10000 ≤ (((a.toNat - 0xF0) * 64 + (b.toNat - 0x80)) * 64 + (c.toNat - 0x80)) * 64 +
      (d.toNat - 0x80) := by
    split at hb <;> omega
  have hmax : a.toNat = 0xF4 → b.toNat < 0x90 := by
    intro h
    rw [if_pos h] at hb
    exact hb.2
  rw [encodeChar_ofNat (by omega), if_neg (by omega), if_neg (by omega), if_neg (by omega),
    ofNat_eq (b := a) (by omega), ofNat_eq (b := b) (by omega), ofNat_eq (b := c) (by omega),
    ofNat_eq (b := d) (by omega)]

/-- A whole piece at the front is a written character. -/
private theorem exists_of_pieces_eq_char {b : Bytes} {c : Char} {ps : List Piece}
    (h : pieces b = .char c :: ps) : ∃ rest, b = encodeChar c ++ rest ∧ pieces rest = ps := by
  cases b with
  | nil => cases h
  | cons a b =>
    rw [pieces, piecesFrom_cons, next] at h
    by_cases h₁ : a.toNat < 0x80
    · rw [begin_ascii h₁] at h
      obtain ⟨hc, hp⟩ := List.cons.inj h
      refine ⟨b, ?_, hp⟩
      rw [← Piece.char.inj hc, encodeChar_ofNat (by omega), if_pos h₁, UInt8.ofNat_toNat]
      rfl
    by_cases h₂ : a.toNat < 0xC2
    · simp [begin, h₁, h₂] at h
    by_cases h₃ : a.toNat < 0xE0
    · rw [begin_two ⟨by omega, h₃⟩] at h
      obtain ⟨x, tail, rest, rfl, hl, hx, -, rfl, hp⟩ := inside_eq_char h
      rw [List.length_eq_zero_iff.mp hl]
      exact ⟨rest, by rw [encodeChar_two ⟨by omega, h₃⟩ hx]; rfl, hp⟩
    by_cases h₄ : a.toNat < 0xF0
    · rw [begin_three ⟨by omega, h₄⟩] at h
      obtain ⟨x, tail, rest, rfl, hl, hx, ht, rfl, hp⟩ := inside_eq_char h
      obtain ⟨y, rfl⟩ := List.length_eq_one_iff.mp hl
      exact ⟨rest, by rw [encodeChar_three ⟨by omega, h₄⟩ hx (ht y (by simp))]; rfl, hp⟩
    by_cases h₅ : a.toNat < 0xF5
    · rw [begin_four ⟨by omega, h₅⟩] at h
      obtain ⟨x, tail, rest, rfl, hl, hx, ht, rfl, hp⟩ := inside_eq_char h
      obtain ⟨y, z, rfl⟩ := List.length_eq_two.mp hl
      refine ⟨rest, ?_, hp⟩
      rw [encodeChar_four ⟨by omega, h₅⟩ hx (ht y (by simp)) (ht z (by simp))]
      rfl
    · simp [begin, h₁, h₂, h₃, h₄, h₅] at h

/-- Every byte is part of some piece. -/
private theorem piecesFrom_inside_ne_nil (b : Bytes) (seen missing value low high : Nat) :
    piecesFrom (.inside seen missing value low high) b ≠ [] := by
  induction b generalizing seen missing value low high with
  | nil => simp [piecesFrom]
  | cons x b ih =>
    rw [piecesFrom_cons, next]
    split
    · split
      · simp
      · exact ih _ _ _ _ _
    · simp

private theorem eq_nil_of_pieces {b : Bytes} (h : pieces b = []) : b = [] := by
  cases b with
  | nil => rfl
  | cons a b =>
    rw [pieces, piecesFrom_cons, next, begin] at h
    repeat' split at h
    all_goals simp [piecesFrom_inside_ne_nil] at h

private theorem eq_flatMap_of_pieces {b : Bytes} {cs : List Char} (h : pieces b = cs.map .char) :
    b = cs.flatMap encodeChar := by
  induction cs generalizing b with
  | nil => exact eq_nil_of_pieces h
  | cons c cs ih =>
    obtain ⟨rest, rfl, hr⟩ := exists_of_pieces_eq_char h
    rw [List.flatMap_cons, ← ih hr]

private theorem eq_map_of_join {index : Nat} {ps : List Piece} {cs : List Char}
    (h : join index ps = .ok cs) : ps = cs.map .char := by
  induction ps generalizing index cs with
  | nil =>
    cases h
    rfl
  | cons p ps ih =>
    cases p with
    | char c =>
      rw [join] at h
      cases hj : join (index + (encodeChar c).length) ps with
      | error f => rw [hj] at h; cases h
      | ok ds =>
        rw [hj] at h
        cases h
        rw [List.map_cons, ← ih hj]
    | broken n => cases h
    | cut => cases h

/-- Only written text can be read. -/
theorem eq_encode_of_decode {b : Bytes} {s : String} (h : decode b = .ok s) : b = encode s := by
  rw [decode, decodeChars] at h
  cases hj : join 0 (pieces b) with
  | error f => rw [hj] at h; cases h
  | ok cs =>
    rw [hj] at h
    cases h
    rw [encode, String.toList_ofList]
    exact eq_flatMap_of_pieces (eq_map_of_join hj)

/-- A lenient reading without a replacement character is a strict one. -/
theorem eq_encode_of_decodeLossy {b : Bytes} {s : String} (h : decodeLossy b = s)
    (hs : replacement ∉ s.toList) : b = encode s := by
  subst h
  rw [decodeLossy, String.toList_ofList] at hs
  rw [decodeLossy, encode, String.toList_ofList]
  refine eq_flatMap_of_pieces ?_
  rw [List.map_map]
  refine (List.map_id _).symm.trans (List.map_congr_left fun p hp => ?_)
  cases p with
  | char c => rfl
  | broken n => exact absurd (List.mem_map.mpr ⟨_, hp, rfl⟩) hs
  | cut => exact absurd (List.mem_map.mpr ⟨_, hp, rfl⟩) hs

theorem encodeChar_of_lt {c : Char} (h : c.toNat < 0x80) : encodeChar c = [UInt8.ofNat c.toNat] := by
  rw [encodeChar, if_pos h]

/-- Text of ASCII characters takes a byte for each. -/
theorem encode_ofList {cs : List Char} (h : ∀ c ∈ cs, c.toNat < 0x80) :
    encode (String.ofList cs) = cs.map fun c => UInt8.ofNat c.toNat := by
  rw [encode, String.toList_ofList]
  induction cs with
  | nil => rfl
  | cons c cs ih =>
    rw [List.flatMap_cons, encodeChar_of_lt (h c (by simp)), ih fun d hd => h d (by simp [hd])]
    rfl

end PhraseVault.Utf8
