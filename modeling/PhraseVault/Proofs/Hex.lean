import PhraseVault.Codec.Hex
import PhraseVault.Proofs.Utf8
import Mathlib.Data.List.Induction

/-!
# Hexadecimal text is read up to case

Reading undoes writing. What can be read is pairs of digits of either case, and in lower case it is
what is written of the bytes read. Anything else is refused: for an odd length, or for its first byte
that is no digit.
-/
namespace PhraseVault.Hex

section Digits

/-- The digits that are written. -/
def lowerDigits : List Char :=
  ['0', '1', '2', '3', '4', '5', '6', '7', '8', '9', 'a', 'b', 'c', 'd', 'e', 'f']

/-- Digits that are also read but never written. -/
def upperDigits : List Char := ['A', 'B', 'C', 'D', 'E', 'F']

/-- A byte that is a digit, of either case. -/
def IsDigit (b : UInt8) : Prop := Char.ofNat b.toNat ∈ lowerDigits ++ upperDigits

instance (b : UInt8) : Decidable (IsDigit b) := inferInstanceAs (Decidable (_ ∈ _))

/-- A digit that is also read but never written. -/
def IsUpperDigit (b : UInt8) : Prop := 0x41 ≤ b.toNat ∧ b.toNat ≤ 0x46

instance (b : UInt8) : Decidable (IsUpperDigit b) := inferInstanceAs (Decidable (_ ∧ _))

private theorem forall_byte {p : UInt8 → Prop} (h : ∀ n ∈ List.range 256, p (UInt8.ofNat n))
    (b : UInt8) : p b := by
  have hb := h b.toNat (List.mem_range.mpr b.toNat_lt)
  rwa [UInt8.ofNat_toNat] at hb

private theorem digitValue?_digit {n : Nat} (h : n < 16) :
    digitValue? (UInt8.ofNat (digit n).toNat) = some n := by
  have all : ∀ n ∈ List.range 16, digitValue? (UInt8.ofNat (digit n).toNat) = some n := by decide
  exact all n (List.mem_range.mpr h)

private theorem digit_lt {n : Nat} (h : n < 16) : (digit n).toNat < 0x80 := by
  have all : ∀ n ∈ List.range 16, (digit n).toNat < 0x80 := by decide
  exact all n (List.mem_range.mpr h)

private theorem digit_mem {n : Nat} (h : n < 16) : digit n ∈ lowerDigits := by
  have all : ∀ n ∈ List.range 16, digit n ∈ lowerDigits := by decide
  exact all n (List.mem_range.mpr h)

theorem isDigit_iff (b : UInt8) : IsDigit b ↔ (digitValue? b).isSome :=
  forall_byte (p := fun b => IsDigit b ↔ (digitValue? b).isSome) (by decide +kernel) b

/-- A digit is written in lower case. -/
private theorem digit_of_digitValue? {b : UInt8} {v : Nat} (h : digitValue? b = some v) :
    v < 16 ∧ digit v = (Char.ofNat b.toNat).toLower :=
  forall_byte (p := fun b => ∀ v ∈ digitValue? b, v < 16 ∧ digit v = (Char.ofNat b.toNat).toLower)
    (by decide +kernel) b v h

private theorem toLower_of_not_isUpperDigit {b : UInt8} (h : IsDigit b) (hu : ¬ IsUpperDigit b) :
    (Char.ofNat b.toNat).toLower = Char.ofNat b.toNat :=
  forall_byte (p := fun b => IsDigit b → ¬ IsUpperDigit b →
    (Char.ofNat b.toNat).toLower = Char.ofNat b.toNat) (by decide +kernel) b h hu

/-- A digit is the byte of an ASCII character. -/
private theorem toNat_ofNat_of_isDigit {b : UInt8} (h : IsDigit b) :
    (Char.ofNat b.toNat).toNat = b.toNat ∧ b.toNat < 0x80 :=
  forall_byte (p := fun b => IsDigit b → (Char.ofNat b.toNat).toNat = b.toNat ∧ b.toNat < 0x80)
    (by decide +kernel) b h

private theorem halves (b : UInt8) : b.toNat / 16 < 16 ∧ b.toNat % 16 < 16 := by
  have := b.toNat_lt
  omega

end Digits

section Writing

/-- A byte is written as two digits. -/
theorem encodeChars_cons (x : UInt8) (b : Bytes) :
    encodeChars (x :: b) = digit (x.toNat / 16) :: digit (x.toNat % 16) :: encodeChars b := rfl

theorem exists_digit_of_mem {b : Bytes} {c : Char} (h : c ∈ encodeChars b) :
    ∃ n < 16, c = digit n := by
  obtain ⟨x, -, hx⟩ := List.mem_flatMap.mp h
  have hd := halves x
  rcases List.mem_pair.mp hx with rfl | rfl
  · exact ⟨_, hd.1, rfl⟩
  · exact ⟨_, hd.2, rfl⟩

theorem mem_lowerDigits_of_mem {b : Bytes} {c : Char} (h : c ∈ encodeChars b) : c ∈ lowerDigits := by
  obtain ⟨n, hn, rfl⟩ := exists_digit_of_mem h
  exact digit_mem hn

theorem encodeChars_lt (b : Bytes) : ∀ c ∈ encodeChars b, c.toNat < 0x80 := by
  intro c hc
  obtain ⟨n, hn, rfl⟩ := exists_digit_of_mem hc
  exact digit_lt hn

/-- What is written are digits. -/
theorem isSome_digitValue?_of_mem {b : Bytes} {x : UInt8}
    (h : x ∈ (encodeChars b).map fun c => UInt8.ofNat c.toNat) : (digitValue? x).isSome := by
  obtain ⟨c, hc, rfl⟩ := List.mem_map.mp h
  obtain ⟨n, hn, rfl⟩ := exists_digit_of_mem hc
  rw [digitValue?_digit hn]
  rfl

/-- The bytes of the digits of a byte string. -/
theorem encode_utf8 (b : Bytes) :
    Utf8.encode (encode b) = (encodeChars b).map fun c => UInt8.ofNat c.toNat :=
  Utf8.encode_ofList (encodeChars_lt b)

theorem length_encodeChars (b : Bytes) : (encodeChars b).length = 2 * b.length := by
  induction b with
  | nil => rfl
  | cons x b ih =>
    rw [encodeChars_cons, List.length_cons, List.length_cons, ih, List.length_cons]
    omega

/-- A byte takes two bytes of text. -/
theorem length_encode (b : Bytes) : (Utf8.encode (encode b)).length = 2 * b.length := by
  rw [encode_utf8, List.length_map, length_encodeChars]

end Writing

section Pairs
variable {index i v : Nat} {x : UInt8} {t b : Bytes}

private theorem digitAt_eq_ok (h : digitAt index x = .ok v) : digitValue? x = some v := by
  rw [digitAt] at h
  cases hd : digitValue? x with
  | none =>
    rw [hd] at h
    cases h
  | some w =>
    rw [hd] at h
    cases h
    rfl

private theorem exists_digitAt (h : IsDigit x) (index : Nat) : ∃ v, digitAt index x = .ok v := by
  obtain ⟨v, hv⟩ := Option.isSome_iff_exists.mp ((isDigit_iff x).mp h)
  exact ⟨v, by rw [digitAt, hv]⟩

private theorem digitAt_of_not_isDigit (h : ¬ IsDigit x) (index : Nat) :
    digitAt index x = .error (.invalidDigit x index) := by
  rw [isDigit_iff, Option.not_isSome_iff_eq_none] at h
  rw [digitAt, h]

private theorem decodePairs_encodeChars (index : Nat) (b : Bytes) :
    decodePairs index ((encodeChars b).map fun c => UInt8.ofNat c.toNat) = .ok b := by
  induction b generalizing index with
  | nil => rfl
  | cons x b ih =>
    have hd := halves x
    have hx : UInt8.ofNat (x.toNat / 16 * 16 + x.toNat % 16) = x := by
      rw [Nat.div_add_mod', UInt8.ofNat_toNat]
    rw [encodeChars_cons, List.map_cons, List.map_cons, decodePairs, digitAt,
      digitValue?_digit hd.1, digitAt, digitValue?_digit hd.2, ih]
    exact congrArg (fun y => Except.ok (y :: b)) hx

/-- What the first pair of digits has to be when all are read. -/
private theorem decodePairs_cons_eq_ok {y : UInt8} {rest : Bytes}
    (h : decodePairs index (x :: y :: rest) = .ok b) : ∃ high low bytes,
      digitValue? x = some high ∧ digitValue? y = some low ∧
      decodePairs (index + 2) rest = .ok bytes ∧ b = UInt8.ofNat (high * 16 + low) :: bytes := by
  rw [decodePairs] at h
  cases hx : digitAt index x with
  | error fault =>
    rw [hx] at h
    cases h
  | ok high =>
    cases hy : digitAt (index + 1) y with
    | error fault =>
      rw [hx, hy] at h
      cases h
    | ok low =>
      cases hr : decodePairs (index + 2) rest with
      | error fault =>
        rw [hx, hy, hr] at h
        cases h
      | ok bytes =>
        rw [hx, hy, hr] at h
        cases h
        exact ⟨high, low, bytes, digitAt_eq_ok hx, digitAt_eq_ok hy, rfl, rfl⟩

/-- In lower case, what has been read is what is written of it. -/
private theorem encodeChars_of_decodePairs (hl : t.length % 2 = 0)
    (h : decodePairs index t = .ok b) :
    encodeChars b = t.map fun x => (Char.ofNat x.toNat).toLower := by
  induction t using List.twoStepInduction generalizing index b with
  | nil =>
    cases h
    rfl
  | singleton x => simp at hl
  | cons_cons x y rest ih _ =>
    obtain ⟨high, low, bytes, hx, hy, hr, rfl⟩ := decodePairs_cons_eq_ok h
    obtain ⟨hhigh, hdx⟩ := digit_of_digitValue? hx
    obtain ⟨hlow, hdy⟩ := digit_of_digitValue? hy
    have hbyte : (UInt8.ofNat (high * 16 + low)).toNat = high * 16 + low :=
      Utf8.toNat_ofNat_of_lt (by omega)
    have hq : (high * 16 + low) / 16 = high := by omega
    have hm : (high * 16 + low) % 16 = low := by omega
    rw [encodeChars_cons, hbyte, hq, hm, hdx, hdy, ih (by simp at hl; omega) hr, List.map_cons,
      List.map_cons]

/-- Digits in pairs are read. -/
private theorem exists_decodePairs (hl : t.length % 2 = 0) (h : ∀ x ∈ t, IsDigit x) (index : Nat) :
    ∃ b, decodePairs index t = .ok b := by
  induction t using List.twoStepInduction generalizing index with
  | nil => exact ⟨[], rfl⟩
  | singleton x => simp at hl
  | cons_cons x y rest ih _ =>
    obtain ⟨high, hx⟩ := exists_digitAt (h x (by simp)) index
    obtain ⟨low, hy⟩ := exists_digitAt (h y (by simp)) (index + 1)
    obtain ⟨bytes, hr⟩ := ih (by simp at hl; omega) (fun z hz => h z (by simp [hz])) (index + 2)
    refine ⟨UInt8.ofNat (high * 16 + low) :: bytes, ?_⟩
    rw [decodePairs, hx, hy, hr]
    rfl

/-- The byte at an index is the first one that is no digit. -/
structure FirstStray (t : Bytes) (x : UInt8) (index : Nat) : Prop where
  at_index : t[index]? = some x
  stray : ¬ IsDigit x
  before : ∀ y ∈ t.take index, IsDigit y

theorem exists_firstStray (h : ¬ ∀ x ∈ t, IsDigit x) : ∃ x i, FirstStray t x i := by
  induction t with
  | nil => simp at h
  | cons y t ih =>
    by_cases hy : IsDigit y
    · obtain ⟨x, i, hi⟩ := ih fun ht => h (List.forall_mem_cons.mpr ⟨hy, ht⟩)
      exact ⟨x, i + 1, hi.at_index, hi.stray, List.forall_mem_cons.mpr ⟨hy, hi.before⟩⟩
    · exact ⟨y, 0, rfl, hy, by simp⟩

/-- The first byte that is no digit is reported, however it stands in its pair. -/
private theorem decodePairs_of_firstStray (hl : t.length % 2 = 0) (h : FirstStray t x i)
    (index : Nat) : decodePairs index t = .error (.invalidDigit x (index + i)) := by
  induction t using List.twoStepInduction generalizing index i with
  | nil => cases h.at_index
  | singleton y => simp at hl
  | cons_cons y z rest ih _ =>
    match i, h with
    | 0, h =>
      obtain rfl : y = x := Option.some.inj h.at_index
      rw [decodePairs, digitAt_of_not_isDigit h.stray]
      rfl
    | 1, h =>
      obtain rfl : z = x := Option.some.inj h.at_index
      obtain ⟨high, hy⟩ := exists_digitAt (h.before y (by simp)) index
      rw [decodePairs, hy, digitAt_of_not_isDigit h.stray]
      rfl
    | i + 2, h =>
      obtain ⟨high, hy⟩ := exists_digitAt (h.before y (by simp)) index
      obtain ⟨low, hz⟩ := exists_digitAt (h.before z (by simp)) (index + 1)
      have hrest : FirstStray rest x i :=
        ⟨h.at_index, h.stray, fun w hw => h.before w (by simp [hw])⟩
      rw [decodePairs, hy, hz, ih (by simp at hl; omega) hrest, Nat.add_assoc, Nat.add_comm 2]
      rfl

end Pairs

section Reading
variable {s : String} {b : Bytes}

theorem decode_of_odd (h : (Utf8.encode s).length % 2 = 1) : decode s = .error .oddLength := by
  rw [decode, decodeBytes, if_pos h]

theorem decode_of_even (h : (Utf8.encode s).length % 2 = 0) :
    decode s = decodePairs 0 (Utf8.encode s) := by
  rw [decode, decodeBytes, if_neg (by omega)]

@[simp] theorem decode_encode (b : Bytes) : decode (encode b) = .ok b := by
  have hl : (Utf8.encode (encode b)).length % 2 = 0 := by
    rw [length_encode]
    omega
  rw [decode_of_even hl, encode_utf8, decodePairs_encodeChars]

theorem encode_injective : Function.Injective encode := by
  intro a b h
  have hd := decode_encode a
  rw [h, decode_encode] at hd
  exact (Except.ok.inj hd).symm

theorem decode_of_firstStray {x : UInt8} {i : Nat} (hl : (Utf8.encode s).length % 2 = 0)
    (h : FirstStray (Utf8.encode s) x i) : decode s = .error (.invalidDigit x i) := by
  rw [decode_of_even hl, decodePairs_of_firstStray hl h, Nat.zero_add]

theorem exists_decode (hl : (Utf8.encode s).length % 2 = 0)
    (h : ∀ x ∈ Utf8.encode s, IsDigit x) : ∃ b, decode s = .ok b := by
  rw [decode_of_even hl]
  exact exists_decodePairs hl h 0

/-- Every text is of one of three kinds, and how it is read depends on that. -/
theorem decode_cases (s : String) :
    (Utf8.encode s).length % 2 = 1 ∧ decode s = .error .oddLength ∨
      (Utf8.encode s).length % 2 = 0 ∧
        ((∃ x i, FirstStray (Utf8.encode s) x i ∧ decode s = .error (.invalidDigit x i)) ∨
          (∀ x ∈ Utf8.encode s, IsDigit x) ∧ ∃ b, decode s = .ok b) := by
  by_cases hl : (Utf8.encode s).length % 2 = 1
  · exact .inl ⟨hl, decode_of_odd hl⟩
  · have hl : (Utf8.encode s).length % 2 = 0 := by omega
    refine .inr ⟨hl, ?_⟩
    by_cases h : ∀ x ∈ Utf8.encode s, IsDigit x
    · exact .inr ⟨h, exists_decode hl h⟩
    · obtain ⟨x, i, hx⟩ := exists_firstStray h
      exact .inl ⟨x, i, hx, decode_of_firstStray hl hx⟩

theorem exists_decode_iff (s : String) : (∃ b, decode s = .ok b) ↔
    (Utf8.encode s).length % 2 = 0 ∧ ∀ x ∈ Utf8.encode s, IsDigit x := by
  constructor
  · rintro ⟨b, hb⟩
    rcases decode_cases s with ⟨-, he⟩ | ⟨hl, ⟨x, i, -, he⟩ | ⟨h, -⟩⟩
    · cases hb.symm.trans he
    · cases hb.symm.trans he
    · exact ⟨hl, h⟩
  · rintro ⟨hl, h⟩
    exact exists_decode hl h

theorem decode_eq_error_iff (s : String) (fault : Fault) : decode s = .error fault ↔
    (Utf8.encode s).length % 2 = 1 ∧ fault = .oddLength ∨
      (Utf8.encode s).length % 2 = 0 ∧
        ∃ x i, FirstStray (Utf8.encode s) x i ∧ fault = .invalidDigit x i := by
  constructor
  · intro hf
    rcases decode_cases s with ⟨hl, he⟩ | ⟨hl, ⟨x, i, hx, he⟩ | ⟨-, b, hb⟩⟩
    · cases hf.symm.trans he
      exact .inl ⟨hl, rfl⟩
    · cases hf.symm.trans he
      exact .inr ⟨hl, x, i, hx, rfl⟩
    · cases hf.symm.trans hb
  · rintro (⟨hl, rfl⟩ | ⟨hl, x, i, hx, rfl⟩)
    · exact decode_of_odd hl
    · exact decode_of_firstStray hl hx

private theorem toList_toLower (s : String) : s.toLower.toList = s.toList.map Char.toLower :=
  String.toList_map

/-- A text of digits is the text of its bytes as characters. -/
private theorem eq_ofList_of_digits (h : ∀ x ∈ Utf8.encode s, IsDigit x) :
    s = String.ofList ((Utf8.encode s).map fun x => Char.ofNat x.toNat) := by
  apply Utf8.encode_injective
  rw [Utf8.encode_ofList, List.map_map]
  · refine (List.map_id _).symm.trans (List.map_congr_left fun x hx => ?_)
    simp only [Function.comp_apply, id_eq, (toNat_ofNat_of_isDigit (h x hx)).1, UInt8.ofNat_toNat]
  · intro c hc
    obtain ⟨x, hx, rfl⟩ := List.mem_map.mp hc
    obtain ⟨hn, hlt⟩ := toNat_ofNat_of_isDigit (h x hx)
    rwa [hn]

/-- Only digits are read. -/
theorem isDigit_of_decode (h : decode s = .ok b) : ∀ x ∈ Utf8.encode s, IsDigit x :=
  ((exists_decode_iff s).mp ⟨b, h⟩).2

theorem isSome_digitValue?_of_decode (h : decode s = .ok b) :
    ∀ x ∈ Utf8.encode s, (digitValue? x).isSome :=
  fun x hx => (isDigit_iff x).mp (isDigit_of_decode h x hx)

/-- What has been read is written in lower case. -/
theorem encode_of_decode (h : decode s = .ok b) : encode b = s.toLower := by
  obtain ⟨hl, hdigits⟩ := (exists_decode_iff s).mp ⟨b, h⟩
  rw [decode_of_even hl] at h
  rw [encode, encodeChars_of_decodePairs hl h, ← String.toList_inj, String.toList_ofList,
    toList_toLower]
  conv_rhs => rw [eq_ofList_of_digits hdigits, String.toList_ofList, List.map_map]
  rfl

/-- Without upper-case digits there is one way to spell a byte string. -/
theorem eq_encode_of_decode (h : decode s = .ok b)
    (hu : ∀ x ∈ Utf8.encode s, ¬ IsUpperDigit x) : s = encode b := by
  have hdigits := isDigit_of_decode h
  have hs := eq_ofList_of_digits hdigits
  rw [encode_of_decode h, ← String.toList_inj, toList_toLower, hs, String.toList_ofList,
    List.map_map]
  refine List.map_congr_left fun x hx => ?_
  exact (toLower_of_not_isUpperDigit (hdigits x hx) (hu x hx)).symm

end Reading
end PhraseVault.Hex
