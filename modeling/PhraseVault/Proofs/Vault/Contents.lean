import PhraseVault.Proofs.Vault.Rotation

/-!
# What a vault keeps

Seen from outside, a vault is empty, or it has a password and keeps a phrase for each of some owners.
Each operation is refused for a reason, or answers and has an effect on that.
-/
namespace PhraseVault.Vault

abbrev Phrases := Std.ExtTreeMap String String

structure Contents where
  password : String
  phrases : Phrases

inductive Operation where
  | hasPassword
  | state
  | setPassword (password : String)
  | verifyPassword (candidate : String)
  | changePassword (current password : String)
  | sealFor (owner phrase password : String)
  | reveal (owner password : String)
  | hasPhrase (owner : String)
  | owners
  | remove (owner : String)
  | wipe

inductive Answer where
  | done
  | flag (b : Bool)
  | text (phrase : String)
  | list (owners : List String)
  | record (p : SealedPhrase)
  | state (st : State)

/-- The phrases of a vault, none if it is empty. -/
def phrasesOf : Option Contents → Phrases
  | none => ∅
  | some c => c.phrases

namespace Operation

def program : Operation → Action Answer
  | hasPassword => Answer.flag <$> Vault.hasPassword
  | state => Answer.state <$> Vault.state
  | setPassword password => (fun _ => Answer.done) <$> Vault.setPassword password
  | verifyPassword candidate => Answer.flag <$> Vault.verifyPassword candidate
  | changePassword current password =>
    (fun _ => Answer.done) <$> Vault.changePassword current password
  | sealFor owner phrase password => Answer.record <$> Vault.sealFor owner phrase password
  | reveal owner password => Answer.text <$> Vault.reveal owner password
  | hasPhrase owner => Answer.flag <$> Vault.hasPhrase owner
  | owners => Answer.list <$> Vault.owners
  | remove owner => (fun _ => Answer.done) <$> Vault.remove owner
  | wipe => (fun _ => Answer.done) <$> Vault.wipe

/-- The passwords that an operation holds against the credential. -/
def candidates : Operation → List String
  | verifyPassword candidate => [candidate]
  | changePassword current _ => [current]
  | sealFor _ _ password | reveal _ password => [password]
  | _ => []

/-- The password that an operation makes a credential of. -/
def renewal? : Operation → Option String
  | setPassword password | changePassword _ password => some password
  | _ => none

variable (agrees : String → Bool) (v : Option Contents)

/-- Why an operation is refused: the first of its checks that fails. -/
def refusal : Operation → Option Fault
  | setPassword password =>
    if (phrasesOf v).size ≠ 0 then some (.phrasesSealed (phrasesOf v).size)
    else if password = "" then some (.input .emptyPassword)
    else none
  | verifyPassword _ => if v.isNone then some .credentialNotSet else none
  | changePassword current password =>
    if v.isNone then some .credentialNotSet
    else if !agrees current then some .wrongPassword
    else if password = "" then some (.input .emptyPassword)
    else none
  | sealFor owner phrase password =>
    if owner = "" then some (.invalidOwner owner)
    else if isBlank phrase then some (.input .emptyPhrase)
    else if v.isNone then some .credentialNotSet
    else if !agrees password then some .wrongPassword
    else if owner ∈ phrasesOf v then some (.phraseExists owner)
    else none
  | reveal owner _ =>
    if v.isNone then some .credentialNotSet
    else if owner ∉ phrasesOf v then some (.phraseNotFound owner)
    else none
  | remove owner => if owner ∉ phrasesOf v then some (.phraseNotFound owner) else none
  | _ => none

/-- What an operation that is not refused makes of a vault. Only removing and wiping take phrases
away. -/
def effect : Operation → Option Contents
  | setPassword password => some ⟨password, phrasesOf v⟩
  | changePassword _ password => v.map fun c => { c with password }
  | sealFor owner phrase _ => v.map fun c => { c with phrases := c.phrases.insertIfNew owner phrase }
  | remove owner => v.map fun c => { c with phrases := c.phrases.erase owner }
  | wipe => none
  | _ => v

/-- What an operation that is not refused answers. A phrase that is revealed to another password is
some text. -/
def Answers : Operation → Answer → Prop
  | hasPassword, a => a = .flag v.isSome
  | state, a => a = .state (v.elim .uninitialized fun c => .passwordSet c.phrases.size)
  | verifyPassword candidate, a => a = .flag (agrees candidate)
  | sealFor owner _ _, a => ∃ p, a = .record p ∧ p.owner = owner
  | reveal owner password, a =>
    ∃ text, a = .text text ∧ (agrees password → (phrasesOf v)[owner]? = some text)
  | hasPhrase owner, a => a = .flag (decide (owner ∈ phrasesOf v))
  | owners, a => a = .list (phrasesOf v).keys
  | _, a => a = .done

/-- What a vault keeps when an operation has been stopped, as the records before and after tell. -/
def remainder (before after : Records) (op : Operation) : Option Contents :=
  match op with
  | setPassword _ | changePassword _ _ =>
    if after[Key.credential]? = before[Key.credential]? then v else op.effect v
  | sealFor owner _ _ =>
    if Key.phrase owner ∈ after ∧ Key.phrase owner ∉ before then op.effect v else v
  | remove owner =>
    if Key.phrase owner ∈ before ∧ Key.phrase owner ∉ after then op.effect v else v
  | wipe =>
    if Key.credential ∈ after then
      v.map fun c => { c with phrases := c.phrases.filter fun owner _ => Key.phrase owner ∈ after }
    else none
  | _ => v

/-- The operations that take an owner's phrase away. -/
def Removes (owner : String) : Operation → Prop
  | remove o => o = owner
  | wipe => True
  | _ => False

variable {v} {op : Operation} {owner text : String}

theorem phrase_effect (h : (phrasesOf v)[owner]? = some text) (hop : ¬ op.Removes owner) :
    (phrasesOf (op.effect v))[owner]? = some text := by
  cases v with
  | none => simp [phrasesOf] at h
  | some c =>
    cases op with
    | sealFor o phrase password =>
      have hm : owner ∈ c.phrases := by
        rw [← Records.getElem?_ne_none_iff, show c.phrases[owner]? = some text from h]
        simp
      simp only [effect, Option.map_some, phrasesOf]
      rw [Records.getElem?_insertIfNew, if_neg]
      · exact h
      · rintro ⟨rfl, hn⟩
        exact hn hm
    | remove o =>
      simp only [effect, Option.map_some, phrasesOf]
      rw [Records.getElem?_erase, if_neg (show ¬ o = owner from hop)]
      exact h
    | wipe => exact absurd trivial hop
    | _ => exact h

theorem phrase_remainder (h : (phrasesOf v)[owner]? = some text) (hop : ¬ op.Removes owner)
    (before after : Records) : (phrasesOf (op.remainder v before after))[owner]? = some text := by
  have he := phrase_effect h hop
  cases op with
  | wipe => exact absurd trivial hop
  | setPassword _ | changePassword _ _ | sealFor _ _ _ | remove _ =>
    rw [remainder]
    split <;> assumption
  | _ => exact h

end Operation
/-- Settled records that keep what a vault has, sealed under a credential made of its password. -/
structure Contains (y : Records) (d : Credential) (c : Contents) : Prop where
  made : ∃ salt keySalt, d = Credential.create c.password salt keySalt
  stored : Stored y d
  key : ∀ key ∈ y, key = Key.credential ∨ ∃ owner, owner ≠ "" ∧ key = Key.phrase owner
  phrase : ∀ owner, Option.Rel (fun text bytes => Opens bytes owner (d.cipherKey c.password) text)
    c.phrases[owner]? y[Key.phrase owner]?

def Represents (y : Records) : Option Contents → Prop
  | none => y = ∅
  | some c => ∃ d, Contains y d c

/-- Records, settled or not, that keep what a vault has. -/
def Keeps (x : Records) (v : Option Contents) : Prop := ∃ y, Settles x y ∧ Represents y v

/-- Records that keep what a vault has, and are settled unless changes may fail. -/
def Holds (fails : Prop) (x : Records) (v : Option Contents) : Prop :=
  Keeps x v ∧ (Represents x v ∨ fails)

section
variable {x y : Records} {d : Credential} {c : Contents} {v : Option Contents}

theorem getElem?_empty (key : String) : (∅ : Records)[key]? = none :=
  Records.getElem?_eq_none_iff.mpr Std.ExtTreeMap.not_mem_empty

theorem Contains.mem_phrase (h : Contains y d c) (owner : String) :
    Key.phrase owner ∈ y ↔ owner ∈ c.phrases := by
  rw [← Records.getElem?_ne_none_iff, ← Records.getElem?_ne_none_iff]
  have hp := h.phrase owner
  generalize c.phrases[owner]? = text at hp ⊢
  generalize y[Key.phrase owner]? = bytes at hp ⊢
  cases hp <;> simp

theorem Contains.mem_credential (h : Contains y d c) : Key.credential ∈ y := by
  obtain ⟨bytes, hb, -⟩ := h.stored
  rw [← Records.getElem?_ne_none_iff, hb]
  simp

theorem Represents.credential_eq_none (h : Represents y none) : y[Key.credential]? = none := by
  rw [show y = ∅ from h, getElem?_empty]

theorem Represents.isSome_credential (h : Represents y v) :
    y[Key.credential]?.isSome = v.isSome := by
  cases v with
  | none =>
    rw [h.credential_eq_none]
    rfl
  | some c =>
    obtain ⟨d, hd⟩ := h
    obtain ⟨bytes, hb, -⟩ := hd.stored
    rw [hb]
    rfl

theorem Represents.key (h : Represents y v) :
    ∀ key ∈ y, key = Key.credential ∨ ∃ owner, owner ≠ "" ∧ key = Key.phrase owner := by
  cases v with
  | none =>
    intro key hk
    rw [show y = ∅ from h] at hk
    exact absurd hk Std.ExtTreeMap.not_mem_empty
  | some c =>
    obtain ⟨d, hd⟩ := h
    exact hd.key

theorem Represents.mem_phrase (h : Represents y v) (owner : String) :
    Key.phrase owner ∈ y ↔ owner ∈ phrasesOf v := by
  cases v with
  | none =>
    rw [show y = ∅ from h]
    exact iff_of_false Std.ExtTreeMap.not_mem_empty Std.ExtTreeMap.not_mem_empty
  | some c =>
    obtain ⟨d, hd⟩ := h
    exact hd.mem_phrase owner

theorem Represents.not_isPending (h : Represents y v) : ∀ key ∈ y, ¬ Key.IsPending key := by
  intro key hk
  rcases h.key key hk with rfl | ⟨owner, -, rfl⟩
  · exact Key.not_isPending_credential
  · exact Key.not_isPending_phrase owner

theorem Represents.settles (h : Represents y v) : Settles y y := settles_of_clean h.not_isPending

theorem Represents.keeps (h : Represents y v) : Keeps y v := ⟨y, h.settles, h⟩

theorem Represents.holds {fails : Prop} (h : Represents y v) : Holds fails y v :=
  ⟨h.keeps, .inl h⟩

theorem Represents.owners (h : Represents y v) : Records.owners y = (phrasesOf v).keys := by
  refine (Records.pairwise_owners y).eq_of_mem_iff (Records.pairwise_keys _) fun owner => ?_
  rw [Records.mem_owners, h.mem_phrase, Std.ExtTreeMap.mem_keys]

theorem Represents.length_owners (h : Represents y v) :
    (Records.owners y).length = (phrasesOf v).size := by
  rw [h.owners, Std.ExtTreeMap.length_keys]

/-- Settling neither adds nor removes phrases. -/
theorem Settles.mem_phrase (h : Settles x y) (owner : String) :
    Key.phrase owner ∈ y ↔ Key.phrase owner ∈ x := by
  rw [← Records.getElem?_ne_none_iff, ← Records.getElem?_ne_none_iff]
  by_cases hc : Committed x
  · rw [h.phrase_of_committed hc]
    cases hs : x[Key.stagedPhrase owner]? with
    | none => rw [Option.none_or]
    | some bytes =>
      have hm := (h.tidy owner (Records.getElem?_ne_none_iff.mp (by simp [hs]))).2
      simp [Records.getElem?_ne_none_iff.mpr hm]
  · rw [h.phrase_of_not_committed hc]

theorem Settles.mem_credential (h : Settles x y) : Key.credential ∈ y ↔ Key.credential ∈ x := by
  rw [← Records.getElem?_ne_none_iff, ← Records.getElem?_ne_none_iff,
    h.plain _ Key.isPlain_credential]

theorem Contains.phrase_eq_none (h : Contains y d c) {owner : String}
    (ht : c.phrases[owner]? = none) : y[Key.phrase owner]? = none := by
  have hp := h.phrase owner
  rw [ht] at hp
  generalize y[Key.phrase owner]? = bytes at hp ⊢
  cases hp
  rfl

theorem Contains.exists_opens (h : Contains y d c) {owner text : String}
    (ht : c.phrases[owner]? = some text) :
    ∃ bytes, y[Key.phrase owner]? = some bytes ∧
      Opens bytes owner (d.cipherKey c.password) text := by
  have hp := h.phrase owner
  rw [ht] at hp
  generalize y[Key.phrase owner]? = bytes at hp ⊢
  cases hp with
  | some hopens => exact ⟨_, rfl, hopens⟩

theorem Contains.rotatable (h : Contains y d c) {current : String}
    (ha : d.accepts current = .ok true) (hk : d.cipherKey current = d.cipherKey c.password) :
    Rotatable y d current := by
  refine ⟨h.stored, ha, fun owner ho => ?_⟩
  rw [Records.mem_owners, h.mem_phrase, ← Records.getElem?_ne_none_iff] at ho
  obtain ⟨text, ht⟩ := Option.ne_none_iff_exists'.mp ho
  obtain ⟨bytes, hb, hopens⟩ := h.exists_opens ht
  rw [← hk] at hopens
  exact ⟨bytes, text, hb, hopens⟩

theorem Contains.represents (h : Contains y d c) : Represents y (some c) := ⟨d, h⟩

/-- A vault without phrases is given a password. -/
theorem Represents.insert_credential (h : Represents y v) (hv : (phrasesOf v).size = 0)
    (e : Entropy) (password : String) :
    Represents (y.insert Key.credential (freshCredential e password).write)
      (some ⟨password, phrasesOf v⟩) := by
  refine ⟨freshCredential e password, ⟨_, _, rfl⟩, ⟨_, ?_, Credential.read_write _⟩, ?_, ?_⟩
  · rw [Records.getElem?_insert, if_pos rfl]
  · intro key hk
    rw [Std.ExtTreeMap.mem_insert, Std.compare_eq_iff_eq] at hk
    rcases hk with he | hk
    · exact .inl he.symm
    · exact h.key key hk
  · intro owner
    have hn : owner ∉ phrasesOf v := by
      rw [Std.ExtTreeMap.eq_empty_iff_size_eq_zero.mpr hv]
      exact Std.ExtTreeMap.not_mem_empty
    rw [Records.getElem?_insert, if_neg (Key.credential_ne_phrase owner),
      Records.getElem?_eq_none_iff.mpr hn,
      Records.getElem?_eq_none_iff.mpr (mt (h.mem_phrase owner).mp hn)]
    exact .none

/-- A phrase is sealed under the password. -/
theorem Contains.insert_phrase (h : Contains y d c) {owner : String} (ho : owner ≠ "")
    (hn : owner ∉ c.phrases) {bytes : Bytes} {text : String}
    (hopens : Opens bytes owner (d.cipherKey c.password) text) :
    Contains (y.insert (Key.phrase owner) bytes) d
      { c with phrases := c.phrases.insertIfNew owner text } := by
  refine ⟨h.made, ?_, ?_, ?_⟩
  · rw [stored_congr]
    · exact h.stored
    · rw [Records.getElem?_insert, if_neg (Key.phrase_ne_credential owner)]
  · intro key hk
    rw [Std.ExtTreeMap.mem_insert, Std.compare_eq_iff_eq] at hk
    rcases hk with he | hk
    · exact .inr ⟨owner, ho, he.symm⟩
    · exact h.key key hk
  · intro o
    rw [Records.getElem?_insert, Records.getElem?_insertIfNew]
    by_cases he : owner = o
    · subst he
      rw [if_pos rfl, if_pos ⟨rfl, hn⟩]
      exact .some hopens
    · rw [if_neg fun hi => he hi.1, if_neg (mt Key.phrase_inj.mp he)]
      exact h.phrase o

/-- A phrase is removed. -/
theorem Contains.erase_phrase (h : Contains y d c) (owner : String) :
    Contains (y.erase (Key.phrase owner)) d { c with phrases := c.phrases.erase owner } := by
  refine ⟨h.made, ?_, ?_, ?_⟩
  · rw [stored_congr]
    · exact h.stored
    · rw [Records.getElem?_erase, if_neg (Key.phrase_ne_credential owner)]
  · intro key hk
    exact h.key key (Std.ExtTreeMap.mem_of_mem_erase hk)
  · intro o
    rw [Records.getElem?_erase, Records.getElem?_erase]
    by_cases he : owner = o
    · subst he
      rw [if_pos rfl, if_pos rfl]
      exact .none
    · rw [if_neg he, if_neg (mt Key.phrase_inj.mp he)]
      exact h.phrase o

/-- A rotation keeps every phrase. -/
theorem Contains.rotates {y' : Records} {e : Entropy} {current password : String}
    (h : Contains y d c) (hk : d.cipherKey current = d.cipherKey c.password)
    (hr : Rotates y y' (freshCredential e password) (d.cipherKey current)
      ((freshCredential e password).cipherKey password)) :
    Contains y' (freshCredential e password) { c with password } := by
  refine ⟨⟨_, _, rfl⟩, hr.stored, ?_, ?_⟩
  · intro key hk'
    by_cases hc : key = Key.credential
    · exact .inl hc
    by_cases hp : ∃ owner, key = Key.phrase owner
    · obtain ⟨owner, rfl⟩ := hp
      exact h.key _ ((hr.mem_phrase owner).mp hk')
    rw [← Records.getElem?_ne_none_iff, hr.other key hc (not_exists.mp hp),
      Records.getElem?_ne_none_iff] at hk'
    exact h.key key hk'
  · intro owner
    have hp := h.phrase owner
    rcases hr.phrase owner with ⟨hy, hy'⟩ | ⟨bytes, bytes', text, hy, hy', hold, hnew⟩
    · rw [hy] at hp
      rw [hy']
      generalize c.phrases[owner]? = kept at hp ⊢
      cases hp
      exact .none
    · rw [hy] at hp
      rw [hy']
      generalize c.phrases[owner]? = kept at hp ⊢
      cases hp with
      | some hopens =>
        rw [← hk] at hopens
        rw [← hold.unique hopens]
        exact .some hnew

/-- Records that lack some phrases. -/
def Thinned (y x : Records) : Prop :=
  ∀ key, x[key]? = y[key]? ∨ (∃ owner, key = Key.phrase owner) ∧ x[key]? = none

theorem Thinned.mem (h : Thinned y x) {key : String} (hk : key ∈ x) : key ∈ y := by
  rw [← Records.getElem?_ne_none_iff] at hk ⊢
  rcases h key with he | ⟨-, hn⟩
  · rwa [← he]
  · exact absurd hn hk

theorem Thinned.refl (y : Records) : Thinned y y := fun _ => .inl rfl

theorem Thinned.erase (h : Thinned y x) (owner : String) :
    Thinned y (x.erase (Key.phrase owner)) := by
  intro key
  rw [Records.getElem?_erase]
  by_cases he : Key.phrase owner = key
  · exact .inr ⟨⟨owner, he.symm⟩, if_pos he⟩
  · rw [if_neg he]
    exact h key

/-- What is kept when some phrases are missing are the others. -/
theorem Contains.thinned (h : Contains y d c) (hx : Thinned y x) :
    Contains x d
      { c with phrases := c.phrases.filter fun owner _ => Key.phrase owner ∈ x } := by
  refine ⟨h.made, ?_, ?_, ?_⟩
  · rcases hx Key.credential with he | ⟨⟨owner, ho⟩, -⟩
    · exact (stored_congr he d).mpr h.stored
    · exact absurd ho (Key.credential_ne_phrase owner)
  · exact fun key hk => h.key key (hx.mem hk)
  · intro owner
    rw [Std.ExtTreeMap.getElem?_filter']
    have hp := h.phrase owner
    rcases hx (Key.phrase owner) with he | ⟨-, hn⟩
    · have hm : Key.phrase owner ∈ x ↔ owner ∈ c.phrases := by
        rw [← Records.getElem?_ne_none_iff, he, Records.getElem?_ne_none_iff, h.mem_phrase]
      rw [he]
      cases ht : c.phrases[owner]? with
      | none => rwa [ht] at hp
      | some text =>
        have hkept : decide (Key.phrase owner ∈ x) = true := by
          rw [decide_eq_true_iff, hm, ← Records.getElem?_ne_none_iff, ht]
          simp
        rwa [Option.filter_some, if_pos hkept, ← ht]
    · rw [hn, Option.filter_eq_none_iff.mpr]
      · exact .none
      · simp [Records.getElem?_eq_none_iff.mp hn]

end
end PhraseVault.Vault
