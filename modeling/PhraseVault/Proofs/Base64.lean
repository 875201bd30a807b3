import PhraseVault.Codec.Base64
import PhraseVault.Proofs.Utf8
import Mathlib.Data.List.Basic

/-!
# Reading Base64 text inverts writing it

Written groups read back, and a text that can be read is the written form of its bytes: the last
group has to be filled up and must not carry bits beyond its bytes.
-/
namespace PhraseVault.Base64

/-- The byte of a symbol. -/
def symbolByte (n : Nat) : UInt8 := UInt8.ofNat (symbol n).toNat

private theorem symbolValue?_symbolByte {n : Nat} (h : n < 64) :
    symbolValue? (symbolByte n) = some n := by
  have all : ∀ n ∈ List.range 64, symbolValue? (symbolByte n) = some n := by decide
  exact all n (List.mem_range.mpr h)

private theorem symbol_lt {n : Nat} (h : n < 64) : (symbol n).toNat < 0x80 := by
  have all : ∀ n ∈ List.range 64, (symbol n).toNat < 0x80 := by decide
  exact all n (List.mem_range.mpr h)

private theorem symbolByte_ne_fill {n : Nat} (h : n < 64) : symbolByte n ≠ fill := by
  have all : ∀ n ∈ List.range 64, symbolByte n ≠ fill := by decide
  exact all n (List.mem_range.mpr h)

/-- A byte with a value is the byte of that value's symbol. -/
private theorem eq_symbolByte_of_value {b : UInt8} {v : Nat} (h : symbolValue? b = some v) :
    v < 64 ∧ b = symbolByte v := by
  have all : ∀ n ∈ List.range 256, ∀ v ∈ symbolValue? (UInt8.ofNat n),
      v < 64 ∧ UInt8.ofNat n = symbolByte v := by decide +kernel
  have hb := all b.toNat (List.mem_range.mpr b.toNat_lt) v
  rw [UInt8.ofNat_toNat] at hb
  exact hb h

/-- The bytes of the text of a byte string. -/
def writtenBytes (b : Bytes) : Bytes := (encodeChars b).map fun c => UInt8.ofNat c.toNat

private theorem triple_lt (a b c : UInt8) :
    a.toNat * 65536 + b.toNat * 256 + c.toNat < 16777216 := by
  have := a.toNat_lt
  have := b.toNat_lt
  have := c.toNat_lt
  omega

theorem encodeChars_lt (b : Bytes) : ∀ c ∈ encodeChars b, c.toNat < 0x80 := by
  fun_induction encodeChars b with
  | case1 => simp
  | case2 a n =>
    have := a.toNat_lt
    intro c hc
    simp only [List.mem_cons, List.not_mem_nil, or_false] at hc
    rcases hc with rfl | rfl | rfl | rfl
    · exact symbol_lt (by omega)
    · exact symbol_lt (by omega)
    · decide
    · decide
  | case3 a b n =>
    have := a.toNat_lt
    have := b.toNat_lt
    intro c hc
    simp only [List.mem_cons, List.not_mem_nil, or_false] at hc
    rcases hc with rfl | rfl | rfl | rfl
    · exact symbol_lt (by omega)
    · exact symbol_lt (by omega)
    · exact symbol_lt (by omega)
    · decide
  | case4 a b c rest n ih =>
    have := triple_lt a b c
    intro d hd
    simp only [List.mem_cons] at hd
    rcases hd with rfl | rfl | rfl | rfl | hd
    · exact symbol_lt (by omega)
    · exact symbol_lt (by omega)
    · exact symbol_lt (by omega)
    · exact symbol_lt (by omega)
    · exact ih d hd

theorem encode_utf8 (b : Bytes) : Utf8.encode (encode b) = writtenBytes b :=
  Utf8.encode_ofList (encodeChars_lt b)

private theorem writtenBytes_one (a : UInt8) :
    writtenBytes [a] = [symbolByte (a.toNat * 16 / 64), symbolByte (a.toNat * 16 % 64), fill, fill] :=
  rfl

private theorem writtenBytes_two (a b : UInt8) :
    writtenBytes [a, b] = [symbolByte ((a.toNat * 256 + b.toNat) * 4 / 4096),
      symbolByte ((a.toNat * 256 + b.toNat) * 4 / 64 % 64),
      symbolByte ((a.toNat * 256 + b.toNat) * 4 % 64), fill] :=
  rfl

private theorem writtenBytes_three (a b c : UInt8) (rest : Bytes) :
    writtenBytes (a :: b :: c :: rest) =
      symbolByte ((a.toNat * 65536 + b.toNat * 256 + c.toNat) / 262144) ::
        symbolByte ((a.toNat * 65536 + b.toNat * 256 + c.toNat) / 4096 % 64) ::
        symbolByte ((a.toNat * 65536 + b.toNat * 256 + c.toNat) / 64 % 64) ::
        symbolByte ((a.toNat * 65536 + b.toNat * 256 + c.toNat) % 64) :: writtenBytes rest :=
  rfl

private theorem ofNat_eq {n : Nat} {b : UInt8} (h : n % 256 = b.toNat) : UInt8.ofNat n = b := by
  apply UInt8.toNat_inj.mp
  rw [UInt8.toNat_ofNat', h]

private theorem bytesOf_triple (a b c : UInt8) :
    bytesOf ((a.toNat * 65536 + b.toNat * 256 + c.toNat) / 262144)
      ((a.toNat * 65536 + b.toNat * 256 + c.toNat) / 4096 % 64)
      ((a.toNat * 65536 + b.toNat * 256 + c.toNat) / 64 % 64)
      ((a.toNat * 65536 + b.toNat * 256 + c.toNat) % 64) = [a, b, c] := by
  have := a.toNat_lt
  have := b.toNat_lt
  have := c.toNat_lt
  simp only [bytesOf]
  rw [ofNat_eq (b := a) (by omega), ofNat_eq (b := b) (by omega), ofNat_eq (b := c) (by omega)]

private theorem symbolAt_symbolByte {n : Nat} (offset : Nat) (h : n < 64) :
    symbolAt offset (symbolByte n) = .ok n := by
  rw [symbolAt, symbolValue?_symbolByte h]

private theorem splitFill_symbol {n : Nat} (offset index : Nat) (rest : Bytes) (h : n < 64) :
    splitFill offset index (symbolByte n :: rest) =
      (splitFill offset (index + 1) rest).map fun (s, f) => (symbolByte n :: s, f) := by
  rw [splitFill, if_neg (symbolByte_ne_fill h), symbolAt_symbolByte _ h]
  cases splitFill offset (index + 1) rest <;> rfl

private theorem decodeLast_one (offset : Nat) (a : UInt8) :
    decodeLast offset (writtenBytes [a]) = .ok [a] := by
  have := a.toNat_lt
  have h₀ : a.toNat * 16 / 64 < 64 := by omega
  have h₁ : a.toNat * 16 % 64 < 64 := by omega
  have hz : a.toNat * 16 % 64 % 16 = 0 := by omega
  have hs : splitFill offset 0 (writtenBytes [a]) =
      .ok ([symbolByte (a.toNat * 16 / 64), symbolByte (a.toNat * 16 % 64)], 2) := by
    rw [writtenBytes_one, splitFill_symbol _ _ _ h₀, splitFill_symbol _ _ _ h₁]
    rfl
  have hb : (bytesOf (a.toNat * 16 / 64) (a.toNat * 16 % 64) 0 0).take 1 = [a] := by
    simp only [bytesOf, List.take_succ_cons, List.take_zero]
    rw [ofNat_eq (b := a) (by omega)]
  simp [decodeLast, hs, bind, Except.bind, symbolValue?_symbolByte h₀, symbolValue?_symbolByte h₁,
    hz, hb, pure, Except.pure]

private theorem decodeLast_two (offset : Nat) (a b : UInt8) :
    decodeLast offset (writtenBytes [a, b]) = .ok [a, b] := by
  have := a.toNat_lt
  have := b.toNat_lt
  have h₀ : (a.toNat * 256 + b.toNat) * 4 / 4096 < 64 := by omega
  have h₁ : (a.toNat * 256 + b.toNat) * 4 / 64 % 64 < 64 := by omega
  have h₂ : (a.toNat * 256 + b.toNat) * 4 % 64 < 64 := by omega
  have hz : (a.toNat * 256 + b.toNat) * 4 % 64 % 4 = 0 := by omega
  have hs : splitFill offset 0 (writtenBytes [a, b]) =
      .ok ([symbolByte ((a.toNat * 256 + b.toNat) * 4 / 4096),
        symbolByte ((a.toNat * 256 + b.toNat) * 4 / 64 % 64),
        symbolByte ((a.toNat * 256 + b.toNat) * 4 % 64)], 1) := by
    rw [writtenBytes_two, splitFill_symbol _ _ _ h₀, splitFill_symbol _ _ _ h₁,
      splitFill_symbol _ _ _ h₂]
    rfl
  have hb : (bytesOf ((a.toNat * 256 + b.toNat) * 4 / 4096)
      ((a.toNat * 256 + b.toNat) * 4 / 64 % 64) ((a.toNat * 256 + b.toNat) * 4 % 64) 0).take 2 =
        [a, b] := by
    simp only [bytesOf, List.take_succ_cons, List.take_zero]
    rw [ofNat_eq (b := a) (by omega), ofNat_eq (b := b) (by omega)]
  simp [decodeLast, hs, bind, Except.bind, symbolValue?_symbolByte h₀, symbolValue?_symbolByte h₁,
    symbolValue?_symbolByte h₂, hz, hb, pure, Except.pure]

private theorem decodeLast_three (offset : Nat) (a b c : UInt8) :
    decodeLast offset (writtenBytes [a, b, c]) = .ok [a, b, c] := by
  have ht := triple_lt a b c
  have hb := bytesOf_triple a b c
  rw [writtenBytes_three]
  generalize a.toNat * 65536 + b.toNat * 256 + c.toNat = n at ht hb ⊢
  have h₀ : n / 262144 < 64 := by omega
  have h₁ : n / 4096 % 64 < 64 := by omega
  have h₂ : n / 64 % 64 < 64 := by omega
  have h₃ : n % 64 < 64 := by omega
  have hs : splitFill offset 0 (symbolByte (n / 262144) :: symbolByte (n / 4096 % 64) ::
      symbolByte (n / 64 % 64) :: symbolByte (n % 64) :: writtenBytes []) =
      .ok ([symbolByte (n / 262144), symbolByte (n / 4096 % 64), symbolByte (n / 64 % 64),
        symbolByte (n % 64)], 0) := by
    rw [splitFill_symbol _ _ _ h₀, splitFill_symbol _ _ _ h₁, splitFill_symbol _ _ _ h₂,
      splitFill_symbol _ _ _ h₃]
    rfl
  simp [decodeLast, hs, bind, Except.bind, symbolValue?_symbolByte h₀, symbolValue?_symbolByte h₁,
    symbolValue?_symbolByte h₂, symbolValue?_symbolByte h₃, hb, pure, Except.pure]

private theorem exists_cons_writtenBytes {b : Bytes} (h : b ≠ []) :
    ∃ x rest, writtenBytes b = x :: rest := by
  match b, h with
  | [a], _ => exact ⟨_, _, writtenBytes_one a⟩
  | [a, b], _ => exact ⟨_, _, writtenBytes_two a b⟩
  | a :: b :: c :: rest, _ => exact ⟨_, _, writtenBytes_three a b c rest⟩

theorem decodeGroups_writtenBytes (offset : Nat) (b : Bytes) :
    decodeGroups offset (writtenBytes b) = .ok b := by
  induction b using encodeChars.induct generalizing offset with
  | case1 => rfl
  | case2 a => exact decodeLast_one offset a
  | case3 a b => exact decodeLast_two offset a b
  | case4 a b c rest ih =>
    by_cases hr : rest = []
    · rw [hr]
      exact decodeLast_three offset a b c
    · obtain ⟨x, tail, hx⟩ := exists_cons_writtenBytes hr
      have ht := triple_lt a b c
      have hb := bytesOf_triple a b c
      have hi := ih (offset + 4)
      rw [hx] at hi
      rw [writtenBytes_three, hx]
      generalize a.toNat * 65536 + b.toNat * 256 + c.toNat = n at ht hb ⊢
      rw [decodeGroups, symbolAt_symbolByte _ (by omega), symbolAt_symbolByte _ (by omega),
        symbolAt_symbolByte _ (by omega), symbolAt_symbolByte _ (by omega), hi]
      exact congrArg (fun y => Except.ok (y ++ rest)) hb

theorem length_writtenBytes_mod (b : Bytes) : (writtenBytes b).length % 4 = 0 := by
  induction b using encodeChars.induct with
  | case1 => rfl
  | case2 a => simp [writtenBytes_one]
  | case3 a b => simp [writtenBytes_two]
  | case4 a b c rest ih =>
    rw [writtenBytes_three]
    simp only [List.length_cons]
    omega

@[simp] theorem decode_encode (b : Bytes) : decode (encode b) = .ok b := by
  have hl := length_writtenBytes_mod b
  rw [decode, encode_utf8, decodeBytes]
  cases hg : (writtenBytes b).getLast? with
  | none =>
    rw [List.getLast?_eq_none_iff] at hg
    have hd := decodeGroups_writtenBytes 0 b
    rw [hg] at hd
    exact hd
  | some last =>
    simp only
    rw [if_neg (by omega), decodeGroups_writtenBytes]

private theorem symbolAt_eq_ok {offset v : Nat} {b : UInt8} (h : symbolAt offset b = .ok v) :
    v < 64 ∧ b = symbolByte v := by
  rw [symbolAt] at h
  cases hv : symbolValue? b with
  | none => rw [hv] at h; cases h
  | some w =>
    rw [hv] at h
    cases h
    exact eq_symbolByte_of_value hv

/-- The last group is symbols followed by `=`. -/
private theorem splitFill_eq_ok {offset index filled : Nat} {group symbols : Bytes}
    (h : splitFill offset index group = .ok (symbols, filled)) :
    group = symbols ++ List.replicate filled fill ∧ ∀ x ∈ symbols, ∃ v < 64, x = symbolByte v := by
  induction group generalizing index symbols filled with
  | nil =>
    cases h
    simp
  | cons x group ih =>
    rw [splitFill] at h
    by_cases hx : x = fill
    · rw [if_pos hx] at h
      by_cases hi : index < 2
      · rw [if_pos hi] at h
        cases h
      · by_cases ha : group.all (· == fill)
        · rw [if_neg hi, if_pos ha] at h
          cases h
          have hg : group = List.replicate group.length fill := by
            rw [List.eq_replicate_iff]
            simpa using ha
          exact ⟨by rw [hx, List.replicate_succ, ← hg]; rfl, by simp⟩
        · rw [if_neg hi, if_neg ha] at h
          cases h
    · rw [if_neg hx] at h
      cases hv : symbolAt (offset + index) x with
      | error f => rw [hv] at h; cases h
      | ok v =>
        cases hs : splitFill offset (index + 1) group with
        | error f => rw [hv, hs] at h; cases h
        | ok r =>
          obtain ⟨symbols', filled'⟩ := r
          rw [hv, hs] at h
          cases h
          obtain ⟨hg, hall⟩ := ih hs
          refine ⟨by rw [hg]; rfl, ?_⟩
          intro y hy
          rcases List.mem_cons.mp hy with rfl | hy
          · exact ⟨v, symbolAt_eq_ok hv⟩
          · exact hall y hy

private theorem writtenBytes_of_two {u v : Nat} (hu : u < 64) (hv : v < 64) (hz : v % 16 = 0) :
    writtenBytes ((bytesOf u v 0 0).take 1) = [symbolByte u, symbolByte v, fill, fill] := by
  have hn : (UInt8.ofNat ((u * 262144 + v * 4096) / 65536)).toNat = u * 4 + v / 16 := by
    rw [UInt8.toNat_ofNat']
    omega
  have hb : (bytesOf u v 0 0).take 1 = [UInt8.ofNat ((u * 262144 + v * 4096) / 65536)] := by
    simp [bytesOf]
  rw [hb, writtenBytes_one, hn, show (u * 4 + v / 16) * 16 / 64 = u by omega,
    show (u * 4 + v / 16) * 16 % 64 = v by omega]

private theorem writtenBytes_of_three {u v w : Nat} (hu : u < 64) (hv : v < 64) (hw : w < 64)
    (hz : w % 4 = 0) : writtenBytes ((bytesOf u v w 0).take 2) =
      [symbolByte u, symbolByte v, symbolByte w, fill] := by
  have hb : (bytesOf u v w 0).take 2 = [UInt8.ofNat ((u * 262144 + v * 4096 + w * 64) / 65536),
    UInt8.ofNat ((u * 262144 + v * 4096 + w * 64) / 256)] := by
    simp [bytesOf]
  have h₀ : (UInt8.ofNat ((u * 262144 + v * 4096 + w * 64) / 65536)).toNat = u * 4 + v / 16 := by
    rw [UInt8.toNat_ofNat']
    omega
  have h₁ : (UInt8.ofNat ((u * 262144 + v * 4096 + w * 64) / 256)).toNat =
      v % 16 * 16 + w / 4 := by
    rw [UInt8.toNat_ofNat']
    omega
  rw [hb, writtenBytes_two, h₀, h₁,
    show ((u * 4 + v / 16) * 256 + (v % 16 * 16 + w / 4)) * 4 / 4096 = u by omega,
    show ((u * 4 + v / 16) * 256 + (v % 16 * 16 + w / 4)) * 4 / 64 % 64 = v by omega,
    show ((u * 4 + v / 16) * 256 + (v % 16 * 16 + w / 4)) * 4 % 64 = w by omega]

private theorem writtenBytes_of_four {u v w x : Nat} (hu : u < 64) (hv : v < 64) (hw : w < 64)
    (hx : x < 64) (rest : Bytes) : writtenBytes (bytesOf u v w x ++ rest) =
      symbolByte u :: symbolByte v :: symbolByte w :: symbolByte x :: writtenBytes rest := by
  have hb : bytesOf u v w x = [UInt8.ofNat ((u * 262144 + v * 4096 + w * 64 + x) / 65536),
    UInt8.ofNat ((u * 262144 + v * 4096 + w * 64 + x) / 256),
    UInt8.ofNat (u * 262144 + v * 4096 + w * 64 + x)] := rfl
  have h₀ : (UInt8.ofNat ((u * 262144 + v * 4096 + w * 64 + x) / 65536)).toNat =
      u * 4 + v / 16 := by
    rw [UInt8.toNat_ofNat']
    omega
  have h₁ : (UInt8.ofNat ((u * 262144 + v * 4096 + w * 64 + x) / 256)).toNat =
      v % 16 * 16 + w / 4 := by
    rw [UInt8.toNat_ofNat']
    omega
  have h₂ : (UInt8.ofNat (u * 262144 + v * 4096 + w * 64 + x)).toNat = w % 4 * 64 + x := by
    rw [UInt8.toNat_ofNat']
    omega
  have hn : (u * 4 + v / 16) * 65536 + (v % 16 * 16 + w / 4) * 256 + (w % 4 * 64 + x) =
      u * 262144 + v * 4096 + w * 64 + x := by omega
  rw [hb, List.cons_append, List.cons_append, List.cons_append, List.nil_append,
    writtenBytes_three, h₀, h₁, h₂, hn,
    show (u * 262144 + v * 4096 + w * 64 + x) / 262144 = u by omega,
    show (u * 262144 + v * 4096 + w * 64 + x) / 4096 % 64 = v by omega,
    show (u * 262144 + v * 4096 + w * 64 + x) / 64 % 64 = w by omega,
    show (u * 262144 + v * 4096 + w * 64 + x) % 64 = x by omega]

private theorem writtenBytes_of_decodeLast {offset : Nat} {group b : Bytes}
    (h : decodeLast offset group = .ok b) (hl : group.length ≤ 4) : group = writtenBytes b := by
  cases hs : splitFill offset 0 group with
  | error f => rw [decodeLast, hs] at h; cases h
  | ok r =>
    obtain ⟨symbols, filled⟩ := r
    obtain ⟨hg, hall⟩ := splitFill_eq_ok hs
    rw [decodeLast, hs] at h
    simp only [bind, Except.bind] at h
    have hlen : symbols.length + filled ≤ 4 := by
      have := congrArg List.length hg
      simp at this
      omega
    match symbols, hg, hall, h, hlen with
    | [], _, _, h, _ => cases h
    | [_], _, _, h, _ => cases h
    | [x, y], hg, hall, h, hlen =>
      obtain ⟨u, hu, rfl⟩ := hall x (by simp)
      obtain ⟨v, hv, rfl⟩ := hall y (by simp)
      by_cases hf : filled = 2
      · by_cases hz : v % 16 = 0
        · simp [hf, symbolValue?_symbolByte hu, symbolValue?_symbolByte hv, hz, pure,
            Except.pure] at h
          rw [← h, writtenBytes_of_two hu hv hz, hg, hf]
          rfl
        · simp [hf, symbolValue?_symbolByte hu, symbolValue?_symbolByte hv, hz, throw, throwThe,
            MonadExceptOf.throw] at h
      · have hne : 2 + filled ≠ 4 := by omega
        simp [hne, throw, throwThe, MonadExceptOf.throw] at h
    | [x, y, z], hg, hall, h, hlen =>
      obtain ⟨u, hu, rfl⟩ := hall x (by simp)
      obtain ⟨v, hv, rfl⟩ := hall y (by simp)
      obtain ⟨w, hw, rfl⟩ := hall z (by simp)
      by_cases hf : filled = 1
      · by_cases hz : w % 4 = 0
        · simp [hf, symbolValue?_symbolByte hu, symbolValue?_symbolByte hv,
            symbolValue?_symbolByte hw, hz, pure, Except.pure] at h
          rw [← h, writtenBytes_of_three hu hv hw hz, hg, hf]
          rfl
        · simp [hf, symbolValue?_symbolByte hu, symbolValue?_symbolByte hv,
            symbolValue?_symbolByte hw, hz, throw, throwThe, MonadExceptOf.throw] at h
      · have hne : 3 + filled ≠ 4 := by omega
        simp [hne, throw, throwThe, MonadExceptOf.throw] at h
    | [x, y, z, t], hg, hall, h, hlen =>
      obtain ⟨u, hu, rfl⟩ := hall x (by simp)
      obtain ⟨v, hv, rfl⟩ := hall y (by simp)
      obtain ⟨w, hw, rfl⟩ := hall z (by simp)
      obtain ⟨k, hk, rfl⟩ := hall t (by simp)
      have hf : filled = 0 := by
        simp only [List.length_cons, List.length_nil] at hlen
        omega
      simp [hf, symbolValue?_symbolByte hu, symbolValue?_symbolByte hv,
        symbolValue?_symbolByte hw, symbolValue?_symbolByte hk, pure, Except.pure] at h
      have hw' := writtenBytes_of_four hu hv hw hk []
      rw [List.append_nil, h] at hw'
      rw [hw', hg, hf]
      rfl
    | _ :: _ :: _ :: _ :: _ :: _, _, _, _, hlen => simp at hlen; omega

theorem writtenBytes_of_decodeGroups {offset : Nat} {text b : Bytes}
    (h : decodeGroups offset text = .ok b) : text = writtenBytes b := by
  induction offset, text using decodeGroups.induct generalizing b with
  | case1 offset a₀ a₁ a₂ a₃ e rest ih =>
    rw [decodeGroups] at h
    cases h₀ : symbolAt offset a₀ with
    | error f => rw [h₀] at h; cases h
    | ok u =>
    cases h₁ : symbolAt (offset + 1) a₁ with
    | error f => rw [h₀, h₁] at h; cases h
    | ok v =>
    cases h₂ : symbolAt (offset + 2) a₂ with
    | error f => rw [h₀, h₁, h₂] at h; cases h
    | ok w =>
    cases h₃ : symbolAt (offset + 3) a₃ with
    | error f => rw [h₀, h₁, h₂, h₃] at h; cases h
    | ok x =>
    cases hr : decodeGroups (offset + 4) (e :: rest) with
    | error f => rw [h₀, h₁, h₂, h₃, hr] at h; cases h
    | ok bytes =>
      rw [h₀, h₁, h₂, h₃, hr] at h
      cases h
      obtain ⟨hu, rfl⟩ := symbolAt_eq_ok h₀
      obtain ⟨hv, rfl⟩ := symbolAt_eq_ok h₁
      obtain ⟨hw, rfl⟩ := symbolAt_eq_ok h₂
      obtain ⟨hx, rfl⟩ := symbolAt_eq_ok h₃
      rw [ih hr, writtenBytes_of_four hu hv hw hx]
  | case2 offset =>
    cases h
    rfl
  | case3 offset group hshort hne =>
    have hl : group.length ≤ 4 := by
      match group, hshort with
      | [], _ | [_], _ | [_, _], _ | [_, _, _], _ | [_, _, _, _], _ => simp
      | a :: b :: c :: d :: e :: rest, hs => exact (hs a b c d e rest rfl).elim
    rw [decodeGroups] at h
    · exact writtenBytes_of_decodeLast h hl
    · exact hshort
    · exact hne

/-- Only written text can be read. -/
theorem eq_encode_of_decode {s : String} {b : Bytes} (h : decode s = .ok b) : s = encode b := by
  apply Utf8.encode_injective
  rw [encode_utf8]
  rw [decode, decodeBytes] at h
  cases hg : (Utf8.encode s).getLast? with
  | none =>
    rw [hg] at h
    cases h
    exact List.getLast?_eq_none_iff.mp hg
  | some last =>
    rw [hg] at h
    simp only at h
    split at h
    · cases h
    · exact writtenBytes_of_decodeGroups h

/-- The symbols in the order of their values. -/
def alphabet : List Char :=
  "ABCDEFGHIJKLMNOPQRSTUVWXYZabcdefghijklmnopqrstuvwxyz0123456789+/".toList

/-- Whole groups of four: symbols, then up to two `=`, and no bits after the last byte. -/
def Canonical (text : List Char) : Prop :=
  ∃ symbols filled, text = symbols ++ List.replicate filled '=' ∧ (∀ c ∈ symbols, c ∈ alphabet) ∧
    filled ≤ 2 ∧ (symbols.length + filled) % 4 = 0 ∧
    ∀ c ∈ symbols.getLast?, alphabet.idxOf c % Nat.pow 4 filled = 0

private theorem idxOf_symbol {n : Nat} (h : n < 64) :
    symbol n ∈ alphabet ∧ alphabet.idxOf (symbol n) = n := by
  have all : ∀ n ∈ List.range 64, symbol n ∈ alphabet ∧ alphabet.idxOf (symbol n) = n := by
    decide +kernel
  exact all n (List.mem_range.mpr h)

private theorem symbol_idxOf {c : Char} (h : c ∈ alphabet) :
    alphabet.idxOf c < 64 ∧ symbol (alphabet.idxOf c) = c := by
  have halphabet : alphabet = (List.range 64).map symbol := by decide +kernel
  rw [halphabet] at h
  obtain ⟨n, hn, rfl⟩ := List.mem_map.mp h
  rw [(idxOf_symbol (List.mem_range.mp hn)).2]
  exact ⟨List.mem_range.mp hn, rfl⟩

theorem canonical_encodeChars (b : Bytes) : Canonical (encodeChars b) := by
  fun_induction encodeChars b with
  | case1 => exact ⟨[], 0, rfl, by simp⟩
  | case2 a n =>
    have := a.toNat_lt
    have h₀ := idxOf_symbol (n := n / 64) (by omega)
    have h₁ := idxOf_symbol (n := n % 64) (by omega)
    refine ⟨[symbol (n / 64), symbol (n % 64)], 2, rfl, by simp [h₀, h₁], by decide,
      by simp, ?_⟩
    simp only [List.getLast?_cons_cons, List.getLast?_singleton, Option.mem_some_iff,
      forall_eq', h₁]
    have hpow : Nat.pow 4 2 = 16 := rfl
    rw [hpow]
    omega
  | case3 a b n =>
    have := a.toNat_lt
    have := b.toNat_lt
    have h₀ := idxOf_symbol (n := n / 4096) (by omega)
    have h₁ := idxOf_symbol (n := n / 64 % 64) (by omega)
    have h₂ := idxOf_symbol (n := n % 64) (by omega)
    refine ⟨[symbol (n / 4096), symbol (n / 64 % 64), symbol (n % 64)], 1, rfl,
      by simp [h₀, h₁, h₂], by decide, by simp, ?_⟩
    simp only [List.getLast?_cons_cons, List.getLast?_singleton, Option.mem_some_iff,
      forall_eq', h₂]
    have hpow : Nat.pow 4 1 = 4 := rfl
    rw [hpow]
    omega
  | case4 a b c rest n ih =>
    have := triple_lt a b c
    have h₀ := idxOf_symbol (n := n / 262144) (by omega)
    have h₁ := idxOf_symbol (n := n / 4096 % 64) (by omega)
    have h₂ := idxOf_symbol (n := n / 64 % 64) (by omega)
    have h₃ := idxOf_symbol (n := n % 64) (by omega)
    obtain ⟨symbols, filled, hrest, hmem, hf, hl, hz⟩ := ih
    refine ⟨symbol (n / 262144) :: symbol (n / 4096 % 64) :: symbol (n / 64 % 64) ::
      symbol (n % 64) :: symbols, filled, by rw [hrest]; rfl, ?_, hf, ?_, ?_⟩
    · simpa [h₀, h₁, h₂, h₃] using hmem
    · simp only [List.length_cons]
      omega
    · cases symbols with
      | nil =>
        have hnone : filled = 0 := by
          simp only [List.length_nil] at hl
          omega
        simp [hnone, Nat.mod_one]
      | cons c symbols => simpa only [List.getLast?_cons_cons] using hz

/-- Values in canonical groups are those of some bytes. -/
private theorem exists_writtenBytes {vs : List Nat} {filled : Nat} (hv : ∀ v ∈ vs, v < 64)
    (hf : filled ≤ 2) (hl : (vs.length + filled) % 4 = 0)
    (hz : ∀ v ∈ vs.getLast?, v % Nat.pow 4 filled = 0) :
    ∃ b, writtenBytes b = vs.map symbolByte ++ List.replicate filled fill := by
  match vs with
  | [] =>
    have hnone : filled = 0 := by
      simp only [List.length_nil] at hl
      omega
    exact ⟨[], by rw [hnone]; rfl⟩
  | [u] =>
    simp only [List.length_singleton] at hl
    omega
  | [u, v] =>
    have htwo : filled = 2 := by
      simp only [List.length_cons, List.length_nil] at hl
      omega
    subst htwo
    exact ⟨_, writtenBytes_of_two (hv u (by simp)) (hv v (by simp)) (hz v rfl)⟩
  | [u, v, w] =>
    have hone : filled = 1 := by
      simp only [List.length_cons, List.length_nil] at hl
      omega
    subst hone
    exact ⟨_, writtenBytes_of_three (hv u (by simp)) (hv v (by simp)) (hv w (by simp)) (hz w rfl)⟩
  | u :: v :: w :: x :: rest =>
    have hlast : ∀ y ∈ rest.getLast?, y % Nat.pow 4 filled = 0 := by
      cases rest with
      | nil => simp
      | cons y rest => simpa only [List.getLast?_cons_cons] using hz
    obtain ⟨b, hb⟩ := exists_writtenBytes (fun y hy => hv y (by simp [hy])) hf
      (by simp only [List.length_cons] at hl; omega) hlast
    refine ⟨_, (writtenBytes_of_four (hv u (by simp)) (hv v (by simp)) (hv w (by simp))
      (hv x (by simp)) b).trans ?_⟩
    rw [hb]
    rfl

theorem exists_encode_of_canonical {s : String} (h : Canonical s.toList) : ∃ b, s = encode b := by
  obtain ⟨symbols, filled, hs, hmem, hf, hl, hz⟩ := h
  have hvalues : (symbols.map alphabet.idxOf).map symbol = symbols := by
    rw [List.map_map]
    exact (List.map_congr_left fun c hc => (symbol_idxOf (hmem c hc)).2).trans (List.map_id _)
  have hascii : ∀ c ∈ symbols ++ List.replicate filled '=', c.toNat < 0x80 := by
    intro c hc
    rcases List.mem_append.mp hc with hc | hc
    · rw [← (symbol_idxOf (hmem c hc)).2]
      exact symbol_lt (symbol_idxOf (hmem c hc)).1
    · rw [List.eq_of_mem_replicate hc]
      decide
  have hlt : ∀ v ∈ symbols.map alphabet.idxOf, v < 64 := by
    simpa using fun c hc => (symbol_idxOf (hmem c hc)).1
  have hlast : ∀ v ∈ (symbols.map alphabet.idxOf).getLast?, v % Nat.pow 4 filled = 0 := by
    simpa [List.getLast?_map] using hz
  obtain ⟨b, hb⟩ := exists_writtenBytes hlt hf (by simpa using hl) hlast
  refine ⟨b, Utf8.encode_injective ?_⟩
  rw [encode_utf8, hb, ← String.ofList_toList (s := s), hs, Utf8.encode_ofList hascii,
    List.map_append, List.map_replicate]
  congr 1
  nth_rewrite 1 [← hvalues]
  rw [List.map_map]
  rfl

/-- Reading inverts writing, and the texts that can be read are the canonical ones. -/
theorem decode_eq_ok_iff (s : String) :
    (∀ b, decode s = .ok b ↔ s = encode b) ∧ ((∃ b, decode s = .ok b) ↔ Canonical s.toList) := by
  have hiff : ∀ b, decode s = .ok b ↔ s = encode b := fun b =>
    ⟨eq_encode_of_decode, fun h => h ▸ decode_encode b⟩
  refine ⟨hiff, ?_⟩
  constructor
  · rintro ⟨b, hb⟩
    rw [eq_encode_of_decode hb, encode, String.toList_ofList]
    exact canonical_encodeChars b
  · intro h
    obtain ⟨b, hb⟩ := exists_encode_of_canonical h
    exact ⟨b, (hiff b).mpr hb⟩

/-- How long a text is depends on the number of bytes alone. -/
theorem length_encode (b : Bytes) : (encode b).length = (b.length + 2) / 3 * 4 := by
  rw [encode, String.length_ofList]
  fun_induction encodeChars b with
  | case4 a b c rest n ih =>
    simp only [List.length_cons, ih]
    omega
  | _ => simp

end PhraseVault.Base64
