import PhraseVault.Proofs.Json.Grammar

/-!
# Reading text in any spelling

The written form of a text is one of its spellings.
-/
namespace PhraseVault.Json

private theorem hexValue?_of_hexDigit {n : Nat} {b : UInt8} (h : HexDigit n b) (hn : n < 16) :
    hexValue? b = some n := by
  have all : ∀ n ∈ List.range 16, hexValue? (ascii n.digitChar) = some n ∧
      hexValue? (ascii n.digitChar.toUpper) = some n := by decide
  have hv := all n (List.mem_range.mpr hn)
  rcases h with rfl | rfl
  · exact hv.1
  · exact hv.2

theorem exists_hexUnit? {n : Nat} {digits : Bytes} (h : HexUnit n digits) :
    ∃ a b c d, digits = [a, b, c, d] ∧ hexUnit? a b c d = some n := by
  obtain ⟨hn, hd⟩ := h
  cases hd with | cons ha hd => ?_
  cases hd with | cons hb hd => ?_
  cases hd with | cons hc hd => ?_
  cases hd with | cons hd hnil => ?_
  cases hnil
  refine ⟨_, _, _, _, rfl, ?_⟩
  rw [hexUnit?, hexValue?_of_hexDigit ha (by omega), hexValue?_of_hexDigit hb (by omega),
    hexValue?_of_hexDigit hc (by omega), hexValue?_of_hexDigit hd (by omega)]
  exact congrArg some (by omega)

theorem unescape?_of_mem {e c : Char} (h : (e, c) ∈ escapes) :
    ascii e ≠ ascii 'u' ∧ unescape? (ascii e) = some (ascii c) ∧ c.toNat < 0x80 := by
  have all : ∀ x ∈ escapes, ascii x.1 ≠ ascii 'u' ∧
      unescape? (ascii x.1) = some (ascii x.2) ∧ x.2.toNat < 0x80 := by decide
  exact all _ h

private theorem isLowSurrogate_eq {n : Nat} (h : n < 0xDC00 ∨ 0xE000 ≤ n) :
    isLowSurrogate n = false := by
  simp only [isLowSurrogate, Bool.and_eq_false_iff, decide_eq_false_iff_not]
  omega

private theorem isHighSurrogate_eq {n : Nat} (h : n < 0xD800 ∨ 0xDC00 ≤ n) :
    isHighSurrogate n = false := by
  simp only [isHighSurrogate, Bool.and_eq_false_iff, decide_eq_false_iff_not]
  omega

/-- A character from U+10000 on is what its two surrogates join to. -/
private theorem joinSurrogates_split {c : Char} (h : 0x10000 ≤ c.toNat) :
    joinSurrogates (0xD800 + (c.toNat - 0x10000) / 1024) (0xDC00 + (c.toNat - 0x10000) % 1024) =
      c := by
  rw [joinSurrogates]
  have hn : (0xD800 + (c.toNat - 0x10000) / 1024 - 0xD800) * 1024 +
      (0xDC00 + (c.toNat - 0x10000) % 1024 - 0xDC00) + 0x10000 = c.toNat := by omega
  rw [hn, Char.ofNat_toNat]

private theorem readBytes_pair {a b c d e f g h : UInt8} {n m : Nat}
    (hn : hexUnit? a b c d = some n) (hm : hexUnit? e f g h = some m)
    (hh : isHighSurrogate n = true) (hl : isLowSurrogate m = true) (rest : Bytes) :
    readBytes (ascii '\\' :: ascii 'u' :: a :: b :: c :: d :: ascii '\\' :: ascii 'u' ::
        e :: f :: g :: h :: rest) =
      prepend (Utf8.encodeChar (joinSurrogates n m)) (readBytes rest) := by
  have hq : ascii '\\' ≠ ascii '"' := by decide
  have hs : ¬ ascii '\\' < 0x20 := by decide
  have hnl : isLowSurrogate n = false := by
    simp only [isHighSurrogate, Bool.and_eq_true, decide_eq_true_eq] at hh
    exact isLowSurrogate_eq (by omega)
  rw [readBytes.eq_def]
  simp only
  rw [if_neg hq, if_neg hs, if_neg (not_not_intro rfl), if_neg (not_not_intro rfl), hn]
  simp [hnl, hh, hm, hl]

theorem readBytes_spelling {c : Char} {part : Bytes} (h : Spelling c part) (rest : Bytes) :
    readBytes (part ++ rest) = prepend (Utf8.encodeChar c) (readBytes rest) := by
  have hvalid : c.toNat < 0xD800 ∨ 0xE000 ≤ c.toNat ∧ c.toNat < 0x110000 := by
    have hv : c.toNat.isValidChar := c.valid
    simp only [Nat.isValidChar] at hv
    omega
  cases h with
  | plain hq hb hc => exact readBytes_plain_append (isPlain_encodeChar hq hb hc) rest
  | letter he =>
    obtain ⟨hu, hc, hlt⟩ := unescape?_of_mem he
    rw [Utf8.encodeChar_of_lt hlt]
    exact readBytes_escape hu hc rest
  | unit hd =>
    obtain ⟨x, y, z, w, rfl, hn⟩ := exists_hexUnit? hd
    have hlt := hd.1
    have hr := readBytes_hex hn (isLowSurrogate_eq (by omega)) (isHighSurrogate_eq (by omega)) rest
    rwa [Char.ofNat_toNat] at hr
  | pair hc hh hl =>
    obtain ⟨x, y, z, w, rfl, hn⟩ := exists_hexUnit? hh
    obtain ⟨x', y', z', w', rfl, hm⟩ := exists_hexUnit? hl
    have hhigh : isHighSurrogate (0xD800 + (c.toNat - 0x10000) / 1024) = true := by
      simp only [isHighSurrogate, Bool.and_eq_true, decide_eq_true_eq]
      omega
    have hlow : isLowSurrogate (0xDC00 + (c.toNat - 0x10000) % 1024) = true := by
      simp only [isLowSurrogate, Bool.and_eq_true, decide_eq_true_eq]
      omega
    have hr := readBytes_pair hn hm hhigh hlow rest
    rwa [joinSurrogates_split hc] at hr

private theorem readBytes_spellings {cs : List Char} {parts : List Bytes}
    (h : List.Forall₂ Spelling cs parts) (rest : Bytes) :
    readBytes (parts.flatten ++ ascii '"' :: rest) = .ok (cs.flatMap Utf8.encodeChar, rest) := by
  induction h with
  | nil =>
    rw [List.flatten_nil, List.nil_append, readBytes.eq_def]
    rfl
  | cons hc _ ih =>
    rw [List.flatten_cons, List.append_assoc, readBytes_spelling hc, ih, prepend_ok,
      List.flatMap_cons]

/-- A text reads back from any of its spellings. -/
theorem readText_spelling {s : String} {b : Bytes} (h : SpellsText s b) (rest : Bytes) :
    ∃ body, b ++ rest = ascii '"' :: body ∧ readText body = .ok (s, rest) := by
  obtain ⟨parts, hp, rfl⟩ := h
  refine ⟨parts.flatten ++ ascii '"' :: rest, ?_, ?_⟩
  · simp [quoted]
  · rw [readText, readBytes_spellings hp]
    have hd : Utf8.decode (s.toList.flatMap Utf8.encodeChar) = .ok s := Utf8.decode_encode s
    simp only [bind, Except.bind, hd]
    rfl

private theorem escape_of_shortEscape {c e : Char} (h : shortEscape? c = some e) :
    (e, c) ∈ escapes := by
  unfold shortEscape? at h
  split at h <;> cases h <;> decide

private theorem hexUnit_control {n : Nat} (h : n < 0x20) :
    HexUnit n [ascii '0', ascii '0', hexDigit (n / 16), hexDigit (n % 16)] := by
  have all : ∀ d ∈ List.range 16, hexDigit d = ascii d.digitChar := by decide
  have hd : ∀ {d}, d < 16 → HexDigit d (hexDigit d) := fun hd =>
    .inl (all _ (List.mem_range.mpr hd))
  have hzero : ∀ {d}, d = 0 → HexDigit d (ascii '0') := by
    rintro d rfl
    exact .inl rfl
  have hhigh : n / 16 % 16 = n / 16 := by omega
  refine ⟨by omega, .cons (hzero (by omega)) (.cons (hzero (by omega)) (.cons ?_ (.cons ?_ .nil)))⟩
  · rw [hhigh]
    exact hd (by omega)
  · exact hd (by omega)

private theorem spelling_writeChar (c : Char) : Spelling c (writeChar c) := by
  rw [writeChar]
  cases hs : shortEscape? c with
  | some e => exact .letter (escape_of_shortEscape hs)
  | none =>
    by_cases hc : c.toNat < 0x20
    · simp only [if_pos hc]
      exact .unit (hexUnit_control hc)
    · simp only [if_neg hc]
      refine .plain ?_ ?_ hc
      · rintro rfl
        cases hs
      · rintro rfl
        cases hs

/-- The written form is one of the spellings. -/
theorem spellsText_writeText (s : String) : SpellsText s (writeText s) := by
  refine ⟨s.toList.map writeChar, ?_, ?_⟩
  · rw [List.forall₂_map_right_iff, List.forall₂_same]
    exact fun c _ => spelling_writeChar c
  · rw [writeText, quoted, List.flatMap_def, List.cons_append]

/-- A member as it is written, without space. -/
def writtenMember (name : String) (v : Bytes) : Member := ⟨.bare (writeText name), .bare v⟩

theorem text_writtenMember (name : String) (v : Bytes) :
    (writtenMember name v).text = writeText name ++ ascii ':' :: v := by
  simp [Member.text, writtenMember]

end PhraseVault.Json
