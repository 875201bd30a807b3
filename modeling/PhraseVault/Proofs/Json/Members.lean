import PhraseVault.Proofs.Json.Skip

/-!
# Reading a record in any layout

Values are read with space around them. The members of an object may come in any order, among others
that are passed over; which names are given, and in which order, decides how reading a record ends.
-/
namespace PhraseVault.Json
variable {α δ : Type}

/-- Behind any space, the reader takes exactly the written bytes or fails. -/
def Yields (value : Reader α) (written : Bytes) (r : Except Fault α) : Prop :=
  ∀ space rest, IsBlank space → EndsNumber rest →
    value (space ++ (written ++ rest)) = r.map fun x => (x, rest)

theorem yields_of_readsBack {value : Reader α} {written : Bytes} {x : α}
    (h : ReadsBack value written x)
    (hs : ∀ {space : Bytes}, IsBlank space → ∀ bytes, value (space ++ bytes) = value bytes) :
    Yields value written (.ok x) := by
  intro space rest hspace hr
  rw [hs hspace, h rest hr]
  rfl

theorem yields_text {s : String} {b : Bytes} (h : SpellsText s b) : Yields text b (.ok s) := by
  intro space rest hs _
  obtain ⟨body, hb, hr⟩ := readText_spelling h rest
  rw [text, skipSpace_append hs, hb, skipSpace_cons (by decide)]
  simp only [if_true, hr]
  rfl

theorem yields_int32 (w : Int32) : Yields int32 (writeInt w.toInt) (.ok w) :=
  yields_of_readsBack (readsBack_int32 w) fun hs bytes => by
    simp only [int32, number, skipSpace_append hs]

theorem yields_size {n : Nat} (h : n < wordLimit) : Yields size (writeNat n) (.ok n) :=
  yields_of_readsBack (readsBack_size h) fun hs bytes => by
    simp only [size, number, skipSpace_append hs]

/-! ## Lists -/

/-- An element of a list that reads as `x` and is not taken for the list's end. -/
structure Element (item : Reader α) (x : α) (s : Spaced) : Prop where
  starts : ∃ b tail, s.body = b :: tail ∧ isSpace b = false ∧ b ≠ ascii ']'
  yields : Yields item s.body (.ok x)

variable {item : Reader α} {space : Bytes}

private theorem nextElement_element {x : α} {s : Spaced} (h : Element item x s) (first : Bool)
    (hs : IsBlank space) (after : Bytes) :
    nextElement first (space ++ (comma first ++ (s.text ++ after))) =
      .ok (some (s.body ++ (s.after ++ after))) := by
  obtain ⟨b, tail, hb, hspace, hne⟩ := h.starts
  have hskip : skipSpace (s.text ++ after) = b :: (tail ++ (s.after ++ after)) := by
    rw [Spaced.text, List.append_assoc, List.append_assoc, skipSpace_append s.blank_before, hb,
      List.cons_append, skipSpace_cons hspace]
  rw [nextElement, skipSpace_append hs, hb]
  cases first with
  | true =>
    rw [comma, List.nil_append, hskip]
    simp only [if_neg hne, if_true, List.cons_append]
  | false =>
    rw [comma, List.singleton_append, skipSpace_cons (by decide)]
    simp only [if_true, hskip, if_neg hne, List.cons_append]
    rfl

private theorem elements_joined {xs : List α} {items : List Spaced}
    (h : List.Forall₂ (Element item) xs items) (rest : Bytes) (first : Bool) {budget : Nat}
    (hs : IsBlank space) (hb : items.length < budget) :
    ∃ last, IsBlank last ∧
      elements item budget first
          (space ++ (joined first (items.map Spaced.text) ++ ascii ']' :: rest)) =
        .ok (xs, last ++ ascii ']' :: rest) := by
  induction h generalizing first space budget with
  | nil =>
    obtain ⟨budget, rfl⟩ := Nat.exists_eq_add_one.mpr hb
    refine ⟨space, hs, ?_⟩
    rw [List.map_nil, joined, List.nil_append, elements, nextElement, skipSpace_append hs,
      skipSpace_cons (by decide)]
    rfl
  | @cons x s xs items hx _ ih =>
    rw [List.length_cons] at hb
    obtain ⟨budget, rfl⟩ := Nat.exists_eq_add_one.mpr (Nat.zero_lt_of_lt hb)
    obtain ⟨last, hlast, hrest⟩ :=
      ih false s.blank_after (Nat.lt_of_succ_lt_succ hb)
    have hread := hx.yields []
      (s.after ++ (joined false (items.map Spaced.text) ++ ascii ']' :: rest))
      isBlank_nil (endsNumber_append s.blank_after (endsNumber_joined _ (endsNumber_bracket rest)))
    rw [List.nil_append] at hread
    refine ⟨last, hlast, ?_⟩
    rw [List.map_cons, joined, List.append_assoc, List.append_assoc, elements,
      nextElement_element hx first hs]
    simp only [bind, Except.bind, hread, Except.map, hrest]
    rfl

private theorem endList_append {last : Bytes} (h : IsBlank last) (rest : Bytes) :
    endList (last ++ ascii ']' :: rest) = .ok rest := by
  rw [endList, skipSpace_append h, skipSpace_cons (by decide)]
  rfl

private theorem length_le_joined (texts : List Bytes) :
    texts.length ≤ (joined true texts).length + 1 := by
  have hcommas : texts.length ≤ (joined false texts).length := by
    induction texts with
    | nil => exact Nat.zero_le _
    | cons text texts ih =>
      simp only [joined, comma, List.length_cons, List.length_append, List.length_nil]
      omega
  cases texts with
  | nil => exact Nat.zero_le _
  | cons text texts =>
    simp only [joined, comma, List.length_append, List.length_cons, List.length_nil] at hcommas ⊢
    omega

theorem yields_list {xs : List α} {items : List Spaced} {gap : Bytes} (hg : IsBlank gap)
    (h : List.Forall₂ (Element item) xs items) :
    Yields (list item) (listText gap items) (.ok xs) := by
  intro space rest hs _
  have hlen := length_le_joined (items.map Spaced.text)
  rw [List.length_map] at hlen
  have hb : items.length <
      (gap ++ (joined true (items.map Spaced.text) ++ ascii ']' :: rest)).length + 1 := by
    simp only [List.length_append, List.length_cons]
    omega
  obtain ⟨last, hlast, hread⟩ := elements_joined h rest true hg hb
  rw [listText, inside, List.cons_append, List.append_assoc, List.append_assoc,
    List.singleton_append, list, skipSpace_append hs, skipSpace_cons (by decide)]
  simp only [if_true, bind, Except.bind, hread, endList_append hlast]
  rfl

/-! ## Members -/

/-- A member not seen before is read from a colon and its value, and added to what is known. -/
theorem yields_once {value : Reader α} {written gap : Bytes} {y : α} {reader : Reader δ} {next : δ}
    (name : String) (ended : Except Fault Unit) (add : α → δ)
    (h : Yields value written (ended.map fun _ => y)) (hg : IsBlank gap)
    (hr : ∀ bytes, reader bytes = (once name none value bytes).map fun (y, rest) => (add y, rest))
    (ha : add y = next) :
    Yields reader (ascii ':' :: (gap ++ written)) (ended.map fun _ => next) := by
  intro space rest hs hrest
  have honce : once name none value (space ++ (ascii ':' :: (gap ++ written) ++ rest)) =
      value (gap ++ (written ++ rest)) := by
    rw [once, List.cons_append, List.append_assoc, skipColon_append hs]
    rfl
  rw [hr, honce, h gap rest hg hrest, ← ha]
  cases ended <;> rfl

theorem yields_ignored {v gap : Bytes} (draft : δ) (h : IsValue v) (hg : IsBlank gap) :
    Yields (ignored draft) (ascii ':' :: (gap ++ v)) (.ok draft) := by
  intro space rest hs hr
  rw [ignored, List.cons_append, List.append_assoc, skipColon_append hs]
  simp only [bind, Except.bind, skipValue_append h hg hr]
  rfl

/-- What may stand as the value of a member: the right one for the first of a known name, any value
for one of another name. The value of a repeated member is not looked at. -/
inductive Fits (known : List String) (right : String → Bytes → Prop) (seen : List String)
    (name : String) (v : Bytes) : Prop
  | first (hk : name ∈ known) (hs : name ∉ seen) (hv : right name v)
  | again (hk : name ∈ known) (hs : name ∈ seen)
  | other (hk : name ∉ known) (hv : IsValue v)

/-- Members with these names in this order, after those seen. -/
inductive Given (known : List String) (right : String → Bytes → Prop) :
    (seen names : List String) → List Member → Prop
  | nil {seen : List String} : Given known right seen [] []
  | cons {seen names : List String} {ms : List Member} {name : String} {m : Member}
    (hn : SpellsText name m.name.body) (hv : Fits known right seen name m.value.body)
    (rest : Given known right (name :: seen) names ms) :
    Given known right seen (name :: names) (m :: ms)

/-- An object with members of these names. -/
def Object (known : List String) (right : String → Bytes → Prop) (names : List String)
    (b : Bytes) : Prop :=
  ∃ gap ms, IsBlank gap ∧ Given known right [] names ms ∧ b = objectText gap ms

/-- How reading a member ends if reading the right value ends in `outcome`. -/
def check (known : List String) (outcome : String → Except Fault Unit) (seen : List String)
    (name : String) : Except Fault Unit :=
  if name ∈ known then if name ∈ seen then .error (.duplicateField name) else outcome name
  else .ok ()

def checkAll (known : List String) (outcome : String → Except Fault Unit) :
    (seen names : List String) → Except Fault Unit
  | _, [] => .ok ()
  | seen, name :: names => do
    check known outcome seen name
    checkAll known outcome (name :: seen) names

/-- The first known name that is not given is missed. -/
def checkComplete (known names : List String) : Except Fault Unit :=
  match known.find? (· ∉ names) with
  | some name => .error (.missingField name)
  | none => .ok ()

def verdict (known : List String) (outcome : String → Except Fault Unit) (names : List String) :
    Except Fault Unit := do
  checkAll known outcome [] names
  checkComplete known names

/-- The draft of `x` after the names seen, and how reading a member takes it to the next. -/
structure Fields (known : List String) (right : String → Bytes → Prop)
    (outcome : String → Except Fault Unit) (member : MemberReader δ) (finish : δ → Except Fault α)
    (draft : List String → δ) (x : α) : Prop where
  first : ∀ {name seen v gap}, name ∈ known → name ∉ seen → right name v → IsBlank gap →
    Yields (member name (draft seen)) (ascii ':' :: (gap ++ v))
      ((outcome name).map fun _ => draft (name :: seen))
  again : ∀ {name seen} bytes, name ∈ known → name ∈ seen →
    member name (draft seen) bytes = .error (.duplicateField name)
  other : ∀ {name} seen, name ∉ known →
    member name (draft seen) = ignored (draft (name :: seen))
  finish : ∀ seen, finish (draft seen) = (checkComplete known seen).map fun _ => x

variable {known : List String} {right : String → Bytes → Prop}
  {outcome : String → Except Fault Unit} {member : MemberReader δ} {finish : δ → Except Fault α}
  {draft : List String → δ} {x : α}

theorem yields_member (hf : Fields known right outcome member finish draft x)
    {seen : List String} {name : String} {v gap : Bytes} (h : Fits known right seen name v)
    (hg : IsBlank gap) :
    Yields (member name (draft seen)) (ascii ':' :: (gap ++ v))
      ((check known outcome seen name).map fun _ => draft (name :: seen)) := by
  cases h with
  | first hk hs hv =>
    rw [check, if_pos hk, if_neg hs]
    exact hf.first hk hs hv hg
  | again hk hs =>
    intro space rest _ _
    rw [check, if_pos hk, if_pos hs]
    exact hf.again _ hk hs
  | other hk hv =>
    rw [check, if_neg hk, hf.other seen hk]
    exact yields_ignored _ hv hg

/-- A member is read from its name, and the value from what follows the name. -/
private theorem members_text {m : Member} {name : String} (h : SpellsText name m.name.body)
    {budget : Nat} {first : Bool} (d : δ) (hs : IsBlank space) (after : Bytes) :
    members member (budget + 1) first d (space ++ (comma first ++ (m.text ++ after))) =
      member name d (m.name.after ++ ascii ':' :: (m.value.text ++ after)) >>=
        fun (d, rest) => members member budget false d rest := by
  obtain ⟨body, hb, hr⟩ :=
    readText_spelling h (m.name.after ++ ascii ':' :: (m.value.text ++ after))
  have hskip : skipSpace (m.text ++ after) = ascii '"' :: body := by
    rw [Member.text, Spaced.text, List.append_assoc, List.append_assoc, List.append_assoc,
      skipSpace_append m.name.blank_before, List.cons_append, hb, skipSpace_cons (by decide)]
  have hnext : nextMember first (space ++ (comma first ++ (m.text ++ after))) = .ok (some body) := by
    rw [nextMember, skipSpace_append hs]
    cases first with
    | true =>
      rw [comma, List.nil_append, hskip]
      rfl
    | false =>
      rw [comma, List.singleton_append, skipSpace_cons (by decide)]
      simp only [hskip]
      rfl
  rw [members, hnext]
  simp only [bind, Except.bind, hr]

/-- Members read one by one, by the names given. -/
theorem members_given (hf : Fields known right outcome member finish draft x)
    {seen names : List String} {ms : List Member} (h : Given known right seen names ms)
    (rest : Bytes) (first : Bool) {budget : Nat} (hs : IsBlank space) (hb : ms.length < budget) :
    ∃ last, IsBlank last ∧
      members member budget first (draft seen)
          (space ++ (joined first (ms.map Member.text) ++ ascii '}' :: rest)) =
        (checkAll known outcome seen names).map fun _ =>
          (draft (names.reverse ++ seen), last ++ ascii '}' :: rest) := by
  induction h generalizing budget first space with
  | nil =>
    obtain ⟨budget, rfl⟩ := Nat.exists_eq_add_one.mpr hb
    refine ⟨space, hs, ?_⟩
    rw [List.map_nil, joined, List.nil_append, members, nextMember, skipSpace_append hs,
      skipSpace_cons (by decide)]
    rfl
  | @cons seen names ms name m hn hv _ ih =>
    rw [List.length_cons] at hb
    obtain ⟨budget, rfl⟩ := Nat.exists_eq_add_one.mpr (Nat.zero_lt_of_lt hb)
    obtain ⟨last, hlast, hrest⟩ :=
      ih false m.value.blank_after (Nat.lt_of_succ_lt_succ hb)
    refine ⟨last, hlast, ?_⟩
    generalize hmore : joined false (ms.map Member.text) ++ ascii '}' :: rest = more at hrest
    have hends : EndsNumber (m.value.after ++ more) := by
      rw [← hmore]
      exact endsNumber_append m.value.blank_after (endsNumber_joined _ (endsNumber_brace rest))
    have hread := yields_member hf hv m.value.blank_before m.name.after _ m.name.blank_after hends
    rw [List.cons_append, List.append_assoc] at hread
    rw [List.map_cons, joined, List.append_assoc, List.append_assoc, hmore, members_text hn _ hs,
      Spaced.text, List.append_assoc, List.append_assoc, hread, checkAll, List.reverse_cons,
      List.append_assoc, List.singleton_append]
    cases check known outcome seen name with
    | error fault => rfl
    | ok _ => exact hrest

private theorem checkComplete_reverse (known names : List String) :
    checkComplete known names.reverse = checkComplete known names := by
  simp only [checkComplete, List.mem_reverse]

/-- Which record is read does not depend on the layout, and whether one is read depends on the names
alone. -/
theorem record_object_given (hf : Fields known right outcome member finish draft x)
    {names : List String} {b : Bytes} (h : Object known right names b) (shape : String)
    (inOrder : Reader α) (hs : IsBlank space) (rest : Bytes) :
    record shape (draft []) member finish inOrder (space ++ (b ++ rest)) =
      (verdict known outcome names).map fun _ => (x, rest) := by
  obtain ⟨gap, ms, hg, hm, rfl⟩ := h
  have hlen := length_le_joined (ms.map Member.text)
  rw [List.length_map] at hlen
  have hb : ms.length <
      (gap ++ (joined true (ms.map Member.text) ++ ascii '}' :: rest)).length + 1 := by
    simp only [List.length_append, List.length_cons]
    omega
  obtain ⟨last, hlast, hread⟩ := members_given hf hm rest true hg hb
  have hend : endObject (last ++ ascii '}' :: rest) = .ok rest := by
    rw [endObject, skipSpace_append hlast, skipSpace_cons (by decide)]
    rfl
  rw [objectText, inside, List.cons_append, List.append_assoc, List.append_assoc,
    List.singleton_append, record, skipSpace_append hs, skipSpace_cons (by decide)]
  simp only
  rw [if_neg (by decide), if_pos trivial, hread, List.append_nil, verdict]
  cases checkAll known outcome [] names with
  | error fault => rfl
  | ok _ =>
    simp only [bind, Except.bind, Except.map, hf.finish, checkComplete_reverse]
    cases checkComplete known names with
    | error fault => rfl
    | ok _ =>
      simp only [hend]
      rfl

theorem whole_of_map {value : Reader α} {bytes last : Bytes} {ended : Except Fault Unit}
    (h : value bytes = ended.map fun _ => (x, last)) (hl : IsBlank last) :
    whole value bytes = ended.map fun _ => x := by
  have hskip : skipSpace last = [] := by
    simpa [skipSpace] using skipSpace_append hl []
  rw [whole, h]
  cases ended with
  | error fault => rfl
  | ok _ =>
    simp only [Except.map, bind, Except.bind, hskip, if_true]
    rfl

/-! ## What decides -/

/-- Every known name is given exactly once. -/
def Complete (known names : List String) : Prop := ∀ name ∈ known, names.count name = 1

instance (known names : List String) : Decidable (Complete known names) :=
  inferInstanceAs (Decidable (∀ name ∈ known, names.count name = 1))

/-- What is wrong with the names given. -/
inductive Amiss (known names : List String) : Fault → Prop
  | missing {name : String} (hk : name ∈ known) (h : names.count name = 0) :
    Amiss known names (.missingField name)
  | repeated {name : String} (hk : name ∈ known) (h : 2 ≤ names.count name) :
    Amiss known names (.duplicateField name)

private theorem facts_of_check {seen : List String} {name : String}
    (h : check known outcome seen name = .ok ()) (hk : name ∈ known) :
    name ∉ seen ∧ outcome name = .ok () := by
  rw [check, if_pos hk] at h
  by_cases hs : name ∈ seen
  · rw [if_pos hs] at h
    cases h
  · rw [if_neg hs] at h
    exact ⟨hs, h⟩

private theorem facts_of_checkAll {seen names : List String}
    (h : checkAll known outcome seen names = .ok ()) {name : String} (hk : name ∈ known)
    (hn : name ∈ names) : (seen ++ names).count name = 1 ∧ outcome name = .ok () := by
  induction names generalizing seen with
  | nil => cases hn
  | cons n names ih =>
    rw [checkAll] at h
    cases hc : check known outcome seen n with
    | error fault =>
      rw [hc] at h
      cases h
    | ok u =>
      rw [hc] at h
      by_cases hmem : name ∈ names
      · obtain ⟨hcount, hout⟩ := ih h hmem
        refine ⟨?_, hout⟩
        rw [← hcount]
        exact List.perm_middle.count_eq name
      · obtain rfl : name = n := by simpa [hmem] using hn
        obtain ⟨hs, hout⟩ := facts_of_check hc hk
        refine ⟨?_, hout⟩
        rw [List.count_append, List.count_cons_self, List.count_eq_zero_of_not_mem hs,
          List.count_eq_zero_of_not_mem hmem]

private theorem fault_of_check {seen : List String} {name : String} {fault : Fault}
    (h : check known outcome seen name = .error fault) :
    name ∈ known ∧ (name ∈ seen ∧ fault = .duplicateField name ∨ outcome name = .error fault) := by
  rw [check] at h
  by_cases hk : name ∈ known
  · rw [if_pos hk] at h
    by_cases hs : name ∈ seen
    · rw [if_pos hs] at h
      cases h
      exact ⟨hk, .inl ⟨hs, rfl⟩⟩
    · rw [if_neg hs] at h
      exact ⟨hk, .inr h⟩
  · rw [if_neg hk] at h
    cases h

private theorem fault_of_checkAll {seen names : List String} {fault : Fault}
    (h : checkAll known outcome seen names = .error fault) :
    (∃ name ∈ known, 2 ≤ (seen ++ names).count name ∧ fault = .duplicateField name) ∨
      ∃ name ∈ known, outcome name = .error fault := by
  induction names generalizing seen with
  | nil => cases h
  | cons n names ih =>
    rw [checkAll] at h
    cases hc : check known outcome seen n with
    | error e =>
      rw [hc] at h
      cases h
      obtain ⟨hk, ⟨hs, hf⟩ | hout⟩ := fault_of_check hc
      · refine .inl ⟨n, hk, ?_, hf⟩
        have hone := List.count_pos_iff.mpr hs
        rw [List.count_append, List.count_cons_self]
        omega
      · exact .inr ⟨n, hk, hout⟩
    | ok u =>
      rw [hc] at h
      rcases ih h with ⟨name, hk, hcount, hf⟩ | hout
      · refine .inl ⟨name, hk, ?_, hf⟩
        rw [List.perm_middle.count_eq name]
        exact hcount
      · exact .inr hout

theorem Amiss.not_complete {names : List String} {fault : Fault} (h : Amiss known names fault) :
    ¬ Complete known names := by
  intro hc
  cases h with
  | @missing name hk h => exact Nat.zero_ne_one (h.symm.trans (hc name hk))
  | @repeated name hk h => exact absurd (hc name hk) (by omega)

/-- A fault tells what is wrong with the names, or with the value of one of them. -/
theorem amiss_of_verdict {names : List String} {fault : Fault}
    (h : verdict known outcome names = .error fault) :
    Amiss known names fault ∨ ∃ name ∈ known, outcome name = .error fault := by
  rw [verdict] at h
  cases hc : checkAll known outcome [] names with
  | error e =>
    rw [hc] at h
    cases h
    rcases fault_of_checkAll hc with ⟨name, hk, hcount, rfl⟩ | hout
    · exact .inl (.repeated hk hcount)
    · exact .inr hout
  | ok u =>
    rw [hc] at h
    simp only [bind, Except.bind, checkComplete] at h
    cases hf : known.find? (· ∉ names) with
    | none =>
      rw [hf] at h
      cases h
    | some name =>
      rw [hf] at h
      cases h
      have hnot : name ∉ names := by simpa using List.find?_some hf
      exact .inl (.missing (List.mem_of_find?_eq_some hf) (List.count_eq_zero_of_not_mem hnot))

/-- Exactly if every known name is given once, and every value can be read, the record is read. -/
theorem verdict_eq_ok_iff {names : List String} :
    verdict known outcome names = .ok () ↔
      Complete known names ∧ ∀ name ∈ known, outcome name = .ok () := by
  constructor
  · intro h
    rw [verdict] at h
    cases hc : checkAll known outcome [] names with
    | error fault =>
      rw [hc] at h
      cases h
    | ok u =>
      rw [hc] at h
      have hmem : ∀ name ∈ known, name ∈ names := by
        simp only [bind, Except.bind, checkComplete] at h
        cases hf : known.find? (· ∉ names) with
        | none => simpa using hf
        | some name =>
          rw [hf] at h
          cases h
      exact ⟨fun name hk => (facts_of_checkAll hc hk (hmem name hk)).1,
        fun name hk => (facts_of_checkAll hc hk (hmem name hk)).2⟩
  · rintro ⟨hc, hout⟩
    cases h : verdict known outcome names with
    | ok u => rfl
    | error fault =>
      rcases amiss_of_verdict h with ha | ⟨name, hk, hf⟩
      · exact absurd hc ha.not_complete
      · cases (hout name hk).symm.trans hf

end PhraseVault.Json
