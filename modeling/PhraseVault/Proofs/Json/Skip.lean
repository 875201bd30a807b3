import PhraseVault.Proofs.Json.Reader
import PhraseVault.Proofs.Json.Spelling

/-!
# Passing over any value

Each step of the skipper takes a byte or is paid for by the byte before it, so twice the length of a
value is budget enough, however deep it is nested.
-/
namespace PhraseVault.Json

private theorem space_facts {b : UInt8} (h : isSpace b = true) :
    isDigit b = false ∧ b ≠ ascii '.' ∧ b ≠ ascii 'e' ∧ b ≠ ascii 'E' := by
  simp only [isSpace, Bool.or_eq_true, beq_iff_eq] at h
  rcases h with ((rfl | rfl) | rfl) | rfl <;> decide

theorem endsNumber_append {space rest : Bytes} (h : IsBlank space) (hr : EndsNumber rest) :
    EndsNumber (space ++ rest) := by
  cases space with
  | nil => exact hr
  | cons b space => exact ⟨b, space ++ rest, rfl, space_facts (h b (by simp))⟩

/-! ## Numbers -/

private theorem ne_of_isDigit {d b : UInt8} (hd : isDigit d = true) (hb : isDigit b = false) :
    d ≠ b := by
  rintro rfl
  exact Bool.false_ne_true (hb.symm.trans hd)

private theorem isSign_digits {digits rest : Bytes} (hd : IsDigits digits) :
    (isMarker '-' (digits ++ rest) || isMarker '+' (digits ++ rest)) = false := by
  obtain ⟨hne, hd⟩ := hd
  cases digits with
  | nil => exact absurd rfl hne
  | cons d ds =>
    have hdigit : isDigit d = true := hd d (by simp)
    rw [List.cons_append, isMarker_of_ne (ne_of_isDigit hdigit (by decide)),
      isMarker_of_ne (ne_of_isDigit hdigit (by decide)), Bool.or_false]

private theorem skipExponent_digits {sign digits rest : Bytes}
    (hs : sign = [] ∨ sign = [ascii '+'] ∨ sign = [ascii '-']) (hd : IsDigits digits)
    (hr : EndsDigits rest) : skipExponent (sign ++ (digits ++ rest)) = .ok rest := by
  obtain ⟨ht, hdrop⟩ := takeWhile_digits hd.2 hr
  have hne : digits.isEmpty = false := by simpa using hd.1
  have hunsigned : (if isMarker '-' (sign ++ (digits ++ rest)) ||
      isMarker '+' (sign ++ (digits ++ rest)) then (sign ++ (digits ++ rest)).tail
      else sign ++ (digits ++ rest)) = digits ++ rest := by
    rcases hs with rfl | rfl | rfl
    · rw [List.nil_append, isSign_digits hd, if_neg (by decide)]
    · rfl
    · rfl
  rw [skipExponent, hunsigned, ht, hdrop, hne, if_neg (by decide)]

private theorem skip_power {power rest : Bytes} (h : IsPower power) (hr : EndsNumber rest) :
    (if startsExponent (power ++ rest) then skipExponent (power ++ rest).tail
      else pure (power ++ rest)) = .ok rest := by
  rcases h with rfl | ⟨e, sign, digits, he, hs, hd, rfl⟩
  · obtain ⟨b, tail, rfl, -, -, hb, hB⟩ := hr
    have hexp : startsExponent (b :: tail) = false := by
      rw [startsExponent, isMarker_of_ne hb, isMarker_of_ne hB, Bool.or_false]
    simp only [List.nil_append, hexp, Bool.false_eq_true, if_false, pure, Except.pure]
  · have hexp : startsExponent (e :: (sign ++ digits ++ rest)) = true := by
      rcases he with rfl | rfl <;> rfl
    rw [List.cons_append, if_pos hexp, List.tail_cons, List.append_assoc,
      skipExponent_digits hs hd hr.endsDigits]

private theorem endsDigits_power {power rest : Bytes} (h : IsPower power) (hr : EndsNumber rest) :
    EndsDigits (power ++ rest) := by
  rcases h with rfl | ⟨e, sign, digits, he, -, -, rfl⟩
  · exact hr.endsDigits
  · refine ⟨e, sign ++ digits ++ rest, rfl, ?_⟩
    rcases he with rfl | rfl <;> decide

private theorem not_point_power {power rest : Bytes} (h : IsPower power) (hr : EndsNumber rest) :
    isMarker '.' (power ++ rest) = false := by
  rcases h with rfl | ⟨e, sign, digits, he, -, -, rfl⟩
  · obtain ⟨b, tail, rfl, -, hp, -⟩ := hr
    exact isMarker_of_ne hp tail
  · rcases he with rfl | rfl <;> exact isMarker_of_ne (by decide) _

theorem skipNumber_append {whole fraction power rest : Bytes} (hw : IsWhole whole)
    (hf : IsFraction fraction) (hp : IsPower power) (hr : EndsNumber rest) :
    skipNumber (whole ++ (fraction ++ power) ++ rest) = .ok rest := by
  have hends : EndsDigits (fraction ++ power ++ rest) := by
    rcases hf with rfl | ⟨digits, -, rfl⟩
    · exact endsDigits_power hp hr
    · exact ⟨ascii '.', digits ++ power ++ rest, rfl, by decide⟩
  obtain ⟨ht, hd⟩ := takeWhile_digits hw.1.2 hends
  have hok : (whole.isEmpty || (isMarker '0' whole && decide (1 < whole.length))) = false := by
    have hne : whole.isEmpty = false := by simpa using hw.1.1
    cases hz : isMarker '0' whole with
    | false => rw [hne, Bool.false_and, Bool.or_false]
    | true =>
      have hone := hw.2 (beq_iff_eq.mp hz)
      rw [hne, hone]
      rfl
  have hpower := skip_power hp hr
  rw [List.append_assoc, skipNumber, ht, hd, hok]
  rcases hf with rfl | ⟨digits, hdigits, rfl⟩
  · simp only [List.nil_append, not_point_power hp hr, Bool.false_eq_true, if_false]
    exact hpower
  · obtain ⟨ht, hd⟩ := takeWhile_digits hdigits.2 (endsDigits_power hp hr)
    have hpoint : isMarker '.' (ascii '.' :: (digits ++ (power ++ rest))) = true := rfl
    have hne : digits.isEmpty = false := by simpa using hdigits.1
    simp only [List.cons_append, List.append_assoc, hpoint, if_true, List.tail_cons, ht, hd, hne,
      Bool.false_eq_true, if_false]
    exact hpower

/-! ## Text -/

private theorem skipText_chunk {c : Bytes} (h : Chunk c) (rest : Bytes) :
    skipText (c ++ rest) = skipText rest := by
  have hq : ascii '\\' ≠ ascii '"' := by decide
  have hs : ¬ ascii '\\' < 0x20 := by decide
  rw [skipText.eq_def]
  cases h with
  | plain hb =>
    simp only [List.cons_append, List.nil_append, if_neg hb.1, if_neg hb.2.1, if_pos hb.2.2]
  | letter he =>
    obtain ⟨hu, hc, -⟩ := unescape?_of_mem he
    simp only [List.cons_append, List.nil_append, if_neg hq, if_neg hs, hu, hc, ne_eq,
      not_true_eq_false, not_false_eq_true, if_false, if_true, Option.isSome_some]
  | unit hd =>
    obtain ⟨x, y, z, w, rfl, hn⟩ := exists_hexUnit? hd
    simp only [List.cons_append, List.nil_append, if_neg hq, if_neg hs, hn, ne_eq,
      not_true_eq_false, if_false, if_true, Option.isSome_some]

theorem skipText_quoted {b : Bytes} (h : IsText b) :
    ∃ body, b = ascii '"' :: body ∧ ∀ rest, skipText (body ++ rest) = .ok rest := by
  obtain ⟨chunks, hc, rfl⟩ := h
  refine ⟨_, rfl, fun rest => ?_⟩
  rw [List.append_assoc, List.singleton_append]
  induction chunks with
  | nil =>
    rw [List.flatten_nil, List.nil_append, skipText.eq_def]
    rfl
  | cons c chunks ih =>
    rw [List.flatten_cons, List.append_assoc, skipText_chunk (hc c (by simp))]
    exact ih fun c h => hc c (by simp [h])

/-! ## Steps -/

/-- After so many steps the skipper has the text behind it and looks for a comma. -/
def Passes (state : Expecting) (stack : List Frame) (text : Bytes) (n : Nat) : Prop :=
  ∀ budget rest, EndsNumber rest →
    skipFrom (n + budget) state stack (text ++ rest) = skipFrom budget .comma stack rest

def Frame.opening : Frame → UInt8
  | .list => ascii '['
  | .object => ascii '{'

/-- What may stand between two commas of a list or an object. -/
structure Frame.Part (f : Frame) (text : Bytes) : Prop where
  starts : ∃ before b tail, text = before ++ b :: tail ∧ IsBlank before ∧ isSpace b = false ∧
    b ≠ f.close
  passes : ∀ stack, ∃ n, n ≤ 2 * text.length ∧ Passes f.member (f :: stack) text n

/-- A value that is told from a closing bracket by its first byte and passed over at any depth. -/
structure Skipped (v : Bytes) : Prop where
  starts : ∃ b tail, v = b :: tail ∧ isSpace b = false ∧ ∀ f : Frame, b ≠ f.close
  passes : ∀ stack, ∃ n, n ≤ 2 * v.length ∧ Passes .value stack v n

variable {stack : List Frame} {f : Frame} {space : Bytes}

/-- Space is passed over, but for what follows the outermost value. -/
theorem skipFrom_append {state : Expecting} (h : stack = [] → state = .value)
    (hs : IsBlank space) (budget : Nat) (rest : Bytes) :
    skipFrom budget state stack (space ++ rest) = skipFrom budget state stack rest := by
  cases budget with
  | zero => simp only [skipFrom]
  | succ budget =>
    cases stack with
    | nil => simp only [h rfl, skipFrom, skipSpace_append hs]
    | cons f stack => cases state <;> simp only [skipFrom, skipSpace_append hs]

private theorem skipFrom_opening (budget : Nat) (rest : Bytes) :
    skipFrom (budget + 1) .value stack (f.opening :: rest) =
      skipFrom budget .first (f :: stack) rest := by
  have hs : isSpace f.opening = false := by cases f <;> decide
  rw [skipFrom, skipSpace_cons hs]
  cases f
  · simp only [Frame.opening, if_true]
  · simp only [Frame.opening, if_true]
    rw [if_neg (by decide)]

private theorem close_facts (f : Frame) : isSpace f.close = false ∧ f.close ≠ ascii ',' := by
  cases f <;> decide

private theorem skipFrom_close {state : Expecting} (h : state = .first ∨ state = .comma)
    (budget : Nat) (rest : Bytes) :
    skipFrom (budget + 1) state (f :: stack) (f.close :: rest) =
      skipFrom budget .comma stack rest := by
  obtain ⟨hs, hc⟩ := close_facts f
  rcases h with rfl | rfl
  · rw [skipFrom, skipSpace_cons hs]
    simp only [if_true]
  · rw [skipFrom, skipSpace_cons hs]
    simp only [if_neg hc, if_true]

private theorem skipFrom_comma (budget : Nat) (rest : Bytes) :
    skipFrom (budget + 1) .comma (f :: stack) (ascii ',' :: rest) =
      skipFrom budget f.member (f :: stack) rest := by
  rw [skipFrom, skipSpace_cons (by decide)]
  simp only [if_true]

private theorem skipFrom_first {text : Bytes} (h : f.Part text) (budget : Nat) (rest : Bytes) :
    skipFrom (budget + 1) .first (f :: stack) (text ++ rest) =
      skipFrom budget f.member (f :: stack) (text ++ rest) := by
  obtain ⟨before, b, tail, rfl, hbefore, hs, hb⟩ := h.starts
  rw [List.append_assoc, List.cons_append, skipFrom_append (by simp) hbefore,
    skipFrom_append (by simp) hbefore, skipFrom, skipSpace_cons hs]
  simp only [if_neg hb]

theorem skipColon_append (hs : IsBlank space) (rest : Bytes) :
    skipColon (space ++ ascii ':' :: rest) = .ok rest := by
  rw [skipColon, skipSpace_append hs, skipSpace_cons (by decide)]
  rfl

private theorem skipFrom_key {name : Bytes} (h : IsText name) (hs : IsBlank space) (budget : Nat)
    (rest : Bytes) :
    skipFrom (budget + 1) .key stack (name ++ (space ++ ascii ':' :: rest)) =
      skipFrom budget .value stack rest := by
  obtain ⟨body, rfl, hb⟩ := skipText_quoted h
  rw [List.cons_append, skipFrom, skipSpace_cons (by decide)]
  simp only [if_true, hb, skipColon_append hs, bind, Except.bind]

/-! ## Lists and objects -/

theorem endsNumber_joined (texts : List Bytes) {rest : Bytes} (hr : EndsNumber rest) :
    EndsNumber (joined false texts ++ rest) := by
  cases texts with
  | nil => exact hr
  | cons text texts => exact endsNumber_comma _

private theorem endsNumber_close (f : Frame) (rest : Bytes) : EndsNumber (f.close :: rest) := by
  cases f
  · exact endsNumber_bracket rest
  · exact endsNumber_brace rest

/-- The rest of a list or an object after its first part. -/
private theorem exists_steps_joined {texts : List Bytes} (h : ∀ t ∈ texts, f.Part t)
    (stack : List Frame) :
    ∃ n, n ≤ 2 * (joined false texts).length + 1 ∧ ∀ budget rest,
      skipFrom (n + budget) .comma (f :: stack) (joined false texts ++ f.close :: rest) =
        skipFrom budget .comma stack rest := by
  induction texts with
  | nil =>
    refine ⟨1, by omega, fun budget rest => ?_⟩
    rw [Nat.add_comm, joined, List.nil_append, skipFrom_close (.inr rfl)]
  | cons text texts ih =>
    -- The comma is a byte of its own, which pays for the step that takes it.
    obtain ⟨n, hn, hpart⟩ := (h text (by simp)).passes stack
    obtain ⟨m, hm, hrest⟩ := ih fun t ht => h t (by simp [ht])
    refine ⟨n + m + 1, ?_, fun budget rest => ?_⟩
    · simp only [joined, comma, List.length_append, List.length_cons, List.length_nil]
      omega
    · have hsteps : n + m + 1 + budget = n + (m + budget) + 1 := by omega
      rw [hsteps, joined, comma, List.singleton_append, List.cons_append, List.append_assoc,
        skipFrom_comma, hpart _ _ (endsNumber_joined texts (endsNumber_close f rest)), hrest]

private theorem exists_steps_inside {texts : List Bytes} (h : ∀ t ∈ texts, f.Part t)
    (hs : IsBlank space) (stack : List Frame) :
    ∃ n, n ≤ 2 * (inside space texts).length + 2 ∧ ∀ budget rest,
      skipFrom (n + budget) .first (f :: stack) (inside space texts ++ f.close :: rest) =
        skipFrom budget .comma stack rest := by
  cases texts with
  | nil =>
    refine ⟨1, by omega, fun budget rest => ?_⟩
    rw [inside, joined, List.append_nil, skipFrom_append (by simp) hs, Nat.add_comm,
      skipFrom_close (.inl rfl)]
  | cons text texts =>
    have hfirst := h text (by simp)
    -- No comma pays for the step to the first part, hence one more than for the others.
    obtain ⟨n, hn, hpart⟩ := hfirst.passes stack
    have hmore : ∀ t ∈ texts, f.Part t := fun t ht => h t (by simp [ht])
    obtain ⟨m, hm, hrest⟩ := exists_steps_joined hmore stack
    refine ⟨n + m + 1, ?_, fun budget rest => ?_⟩
    · simp only [inside, joined, comma, List.length_append, List.length_nil]
      omega
    · have hsteps : n + m + 1 + budget = n + (m + budget) + 1 := by omega
      rw [hsteps, inside, joined, comma, List.nil_append, List.append_assoc, List.append_assoc,
        skipFrom_append (by simp) hs, skipFrom_first hfirst,
        hpart _ _ (endsNumber_joined texts (endsNumber_close f rest)), hrest]

private theorem skipped_frame {texts : List Bytes} (f : Frame) (h : ∀ t ∈ texts, f.Part t)
    (hs : IsBlank space) : Skipped (f.opening :: (inside space texts ++ [f.close])) where
  starts := ⟨_, _, rfl, by cases f <;> decide, fun g => by cases f <;> cases g <;> decide⟩
  passes stack := by
    obtain ⟨n, hn, hinside⟩ := exists_steps_inside h hs stack
    refine ⟨n + 1, ?_, fun budget rest _ => ?_⟩
    · simp only [List.length_cons, List.length_append, List.length_nil]
      omega
    · have hsteps : n + 1 + budget = n + budget + 1 := by omega
      rw [hsteps, List.cons_append, List.append_assoc, List.singleton_append, skipFrom_opening,
        hinside]

private theorem exists_passes_spaced {s : Spaced} (h : Skipped s.body) (f : Frame)
    (stack : List Frame) :
    ∃ n, n ≤ 2 * s.text.length ∧ Passes .value (f :: stack) s.text n := by
  obtain ⟨n, hn, hpass⟩ := h.passes (f :: stack)
  refine ⟨n, ?_, fun budget rest hr => ?_⟩
  · simp only [Spaced.text, List.length_append]
    omega
  · rw [Spaced.text, List.append_assoc, List.append_assoc, skipFrom_append (by simp) s.blank_before,
      hpass _ _ (endsNumber_append s.blank_after hr), skipFrom_append (by simp) s.blank_after]

private theorem part_item {s : Spaced} (h : Skipped s.body) : Frame.list.Part s.text where
  starts := by
    obtain ⟨b, tail, hb, hs, hc⟩ := h.starts
    refine ⟨s.before, b, tail ++ s.after, ?_, s.blank_before, hs, hc _⟩
    rw [Spaced.text, hb, List.cons_append]
  passes := exists_passes_spaced h .list

private theorem part_member {m : Member} (hn : IsText m.name.body) (hv : Skipped m.value.body) :
    Frame.object.Part m.text where
  starts := by
    obtain ⟨body, hb, -⟩ := skipText_quoted hn
    refine ⟨m.name.before, ascii '"', body ++ m.name.after ++ ascii ':' :: m.value.text, ?_,
      m.name.blank_before, by decide, by decide⟩
    rw [Member.text, Spaced.text, hb]
    simp
  passes stack := by
    obtain ⟨n, hle, hpass⟩ := exists_passes_spaced hv .object stack
    refine ⟨n + 1, ?_, fun budget rest hr => ?_⟩
    · simp only [Member.text, List.length_append, List.length_cons]
      omega
    · have hsteps : n + 1 + budget = n + budget + 1 := by omega
      have htext : m.text ++ rest = m.name.before ++ (m.name.body ++
          (m.name.after ++ ascii ':' :: (m.value.text ++ rest))) := by
        simp [Member.text, Spaced.text]
      rw [hsteps, htext, skipFrom_append (by simp) m.name.blank_before, Frame.member,
        skipFrom_key hn m.name.blank_after, hpass _ _ hr]

/-! ## Values -/

private theorem skipped_scalar {b : UInt8} {tail : Bytes} (hs : isSpace b = false)
    (ho : ∀ f : Frame, b ≠ f.opening) (hc : ∀ f : Frame, b ≠ f.close)
    (h : ∀ rest, EndsNumber rest → skipScalar b (tail ++ rest) = .ok rest) :
    Skipped (b :: tail) where
  starts := ⟨b, tail, rfl, hs, hc⟩
  passes stack := by
    refine ⟨1, by simp only [List.length_cons]; omega, fun budget rest hr => ?_⟩
    rw [Nat.add_comm, List.cons_append, skipFrom, skipSpace_cons hs]
    have hlist : b ≠ ascii '[' := ho .list
    have hobject : b ≠ ascii '{' := ho .object
    simp only [if_neg hlist, if_neg hobject, h rest hr, bind, Except.bind]

private theorem skipped_word {v : Bytes} (h : v ∈ words) : Skipped v := by
  simp only [words, List.map_cons, List.map_nil, List.mem_cons, List.not_mem_nil, or_false] at h
  rcases h with rfl | rfl | rfl
  all_goals
    refine skipped_scalar (by decide) (by rintro (_ | _) <;> decide)
      (by rintro (_ | _) <;> decide) ?_
    intro rest _
    rfl

private theorem skipped_number {v : Bytes} (h : IsNumber v) : Skipped v := by
  obtain ⟨sign, whole, fraction, power, hsign, hw, hf, hp, rfl⟩ := h
  rcases hsign with rfl | rfl
  · cases whole with
    | nil => exact absurd rfl hw.1.1
    | cons d ds =>
      have hd : isDigit d = true := hw.1.2 d (by simp)
      refine skipped_scalar (digit_facts hd).1 (fun f => ne_of_isDigit hd (by cases f <;> decide))
        (fun f => ne_of_isDigit hd (by cases f <;> decide)) fun rest hr => ?_
      rw [skipScalar, if_neg (ne_of_isDigit hd (by decide)), if_neg (ne_of_isDigit hd (by decide)),
        if_neg (ne_of_isDigit hd (by decide)), if_neg (ne_of_isDigit hd (by decide)), if_pos hd]
      exact skipNumber_append hw hf hp hr
  · refine skipped_scalar (by decide) (by rintro (_ | _) <;> decide)
      (by rintro (_ | _) <;> decide) fun rest hr => ?_
    have hnumber := skipNumber_append hw hf hp hr
    exact hnumber

private theorem skipped_text {v : Bytes} (h : IsText v) : Skipped v := by
  obtain ⟨body, rfl, hb⟩ := skipText_quoted h
  exact skipped_scalar (by decide) (by rintro (_ | _) <;> decide) (by rintro (_ | _) <;> decide)
    fun rest _ => hb rest

theorem skipped_value {v : Bytes} (h : IsValue v) : Skipped v := by
  induction h with
  | word h => exact skipped_word h
  | number h => exact skipped_number h
  | text h => exact skipped_text h
  | list hs _ ih =>
    refine skipped_frame .list ?_ hs
    simp only [List.forall_mem_map]
    exact fun i hi => part_item (ih i hi)
  | object hs hn _ ih =>
    refine skipped_frame .object ?_ hs
    simp only [List.forall_mem_map]
    exact fun m hm => part_member (hn m hm) (ih m hm)

/-- Any value is passed over, with the space before it. -/
theorem skipValue_append {v rest : Bytes} (h : IsValue v) (hs : IsBlank space)
    (hr : EndsNumber rest) : skipValue (space ++ (v ++ rest)) = .ok rest := by
  obtain ⟨n, hn, hpass⟩ := (skipped_value h).passes []
  rw [skipValue, skipFrom_append (fun _ => rfl) hs]
  obtain ⟨k, hk⟩ : ∃ k, 2 * (space ++ (v ++ rest)).length + 2 = n + (k + 1) := by
    refine ⟨2 * (space ++ (v ++ rest)).length + 1 - n, ?_⟩
    simp only [List.length_append]
    omega
  rw [hk, hpass _ _ hr, skipFrom]

end PhraseVault.Json
