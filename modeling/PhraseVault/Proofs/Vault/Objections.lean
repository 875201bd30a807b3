import PhraseVault.Proofs.Vault.Examining
import PhraseVault.Proofs.Vault.Operations

/-!
# What operations object to

Whatever the records hold, an operation is refused for a reason that can be seen in the request or in
the records. It is opened by settling a leftover rotation, and before it changes anything itself it
has looked at all that it looks at.
-/
namespace PhraseVault.Vault
variable {x y : Records}

/-- A leftover rotation cannot be settled, as a credential that decides on it cannot be read. -/
structure Blocked (x : Records) (fault : Json.Fault) : Prop where
  staged : Key.stagedCredential ∈ x
  unreadable : ∃ key bytes, (key = Key.stagedCredential ∨ key = Key.credential) ∧
    x[key]? = some bytes ∧ Credential.read bytes = .error fault

namespace Operation

/-- Whether an operation reads the credential. -/
def readsCredential : Operation → Bool
  | state | setPassword _ | verifyPassword _ | changePassword _ _ | sealFor _ _ _ | reveal _ _ =>
    true
  | _ => false

/-- Whether an operation holds a password against the stored hash. -/
def comparesHash : Operation → Bool
  | verifyPassword _ | changePassword _ _ | sealFor _ _ _ => true
  | _ => false

/-- The operation reads the phrase of an owner. -/
def ReadsPhrase (owner : String) : Operation → Prop
  | changePassword _ _ => True
  | reveal o _ => o = owner
  | _ => False

/-- The password that an operation demands. -/
def demanded? : Operation → Option String
  | changePassword current _ => some current
  | sealFor _ _ password => some password
  | _ => none

/-- The owner whose phrase there has to be. -/
def sought? : Operation → Option String
  | reveal owner _ | remove owner => some owner
  | _ => none

/-- What is found wrong with a request before any record is looked at. -/
inductive Unfit : Operation → Fault → Prop
  | owner (phrase password : String) : Unfit (sealFor "" phrase password) (.invalidOwner "")
  | phrase {owner phrase : String} (ho : owner ≠ "") (h : isBlank phrase) (password : String) :
    Unfit (sealFor owner phrase password) (.input .emptyPhrase)

/-- What an operation can find among settled records that cannot be used. -/
inductive Finds (op : Operation) (y : Records) : Fault → Prop
  | credentialMalformed {bytes : Bytes} {fault : Json.Fault} (hop : op.readsCredential)
    (h : y[Key.credential]? = some bytes) (hr : Credential.read bytes = .error fault) :
    Finds op y (.malformed fault)
  | hashUnusable {c : Credential} {fault : Credential.HashFault} (hop : op.comparesHash)
    (hc : Stored y c) (h : c.Unusable fault) : Finds op y (.corrupt Key.credential (.hash fault))
  | phraseMalformed {owner : String} {bytes : Bytes} {fault : Json.Fault} (hop : op.ReadsPhrase owner)
    (h : y[Key.phrase owner]? = some bytes) (hr : SealedPhrase.read bytes = .error fault) :
    Finds op y (.malformed fault)
  | phraseForeign {owner : String} {bytes : Bytes} {p : SealedPhrase} (hop : op.ReadsPhrase owner)
    (h : y[Key.phrase owner]? = some bytes) (hr : SealedPhrase.read bytes = .ok p)
    (ho : p.owner ≠ owner) : Finds op y (.corrupt (Key.phrase owner) (.owner p.owner))
  | phraseSpoilt {owner : String} {bytes : Bytes} {p : SealedPhrase} {fault : Primitive.Fault}
    (hop : op.ReadsPhrase owner) (h : y[Key.phrase owner]? = some bytes)
    (hr : SealedPhrase.read bytes = .ok p) (ho : p.owner = owner)
    (hs : Sealing.Spoilt p.cipher p.iv fault) :
    Finds op y (.corrupt (Key.phrase owner) (.cipher fault))

/-- What an operation can object to when the records are in order. -/
inductive Objects (op : Operation) (y : Records) : Fault → Prop
  | noCredential (h : y[Key.credential]? = none) : Objects op y .credentialNotSet
  | wrongPassword {c : Credential} {candidate : String} {hash : Bytes}
    (hop : op.demanded? = some candidate) (hc : Stored y c) (hh : Hex.decode c.hash = .ok hash)
    (hl : hash.length = Password.derivedLength)
    (h : Password.derive candidate (Utf8.encode c.salt) ≠ hash) : Objects op y .wrongPassword
  | noPhrase {owner : String} (hop : op.sought? = some owner) (h : y[Key.phrase owner]? = none) :
    Objects op y (.phraseNotFound owner)
  | phraseExists {owner phrase password : String} (hop : op = sealFor owner phrase password)
    (h : y[Key.phrase owner]? ≠ none) : Objects op y (.phraseExists owner)
  | phrasesSealed {password : String} (hop : op = setPassword password)
    (h : Records.owners y ≠ []) : Objects op y (.phrasesSealed (Records.owners y).length)
  | emptyPassword (hop : op.renewal? = some "") : Objects op y (.input .emptyPassword)

/-- Why an operation is refused among settled records. -/
def Reason (op : Operation) (y : Records) (fault : Fault) : Prop :=
  op.Finds y fault ∨ op.Objects y fault

/-- What an operation that is not refused has found: nothing that it reads cannot be used. -/
structure Served (op : Operation) (x : Records) : Prop where
  fit : ∀ fault, ¬ op.Unfit fault
  sound : ∃ y, Resolves x y ∧ ∀ fault, ¬ op.Finds y fault

/-- What an operation may end with when it is refused: the reason, and the records it leaves. -/
inductive Due (op : Operation) (x : Records) : Fault → Records → Prop
  | unfit {fault : Fault} (h : op.Unfit fault) : Due op x fault x
  | blocked {fault : Json.Fault} (hfit : ∀ f, ¬ op.Unfit f) (h : Blocked x fault) :
    Due op x (.malformed fault) x
  | objected {fault : Fault} {y : Records} (hfit : ∀ f, ¬ op.Unfit f) (hy : Resolves x y)
    (h : op.Reason y fault) : Due op x fault y

end Operation

theorem Resolves.not_blocked (h : Resolves x y) (fault : Json.Fault) : ¬ Blocked x fault := by
  rintro ⟨hm, key, bytes, rfl | rfl, hb, hr⟩
  · obtain ⟨⟨c, bytes', hb', hr'⟩, -⟩ := h.readable hm
    cases hb.symm.trans hb'
    cases hr.symm.trans hr'
  · obtain ⟨d, bytes', hb', hr'⟩ := (h.readable hm).2 (Records.mem_of_getElem? hb)
    cases hb.symm.trans hb'
    cases hr.symm.trans hr'

namespace Action
variable {α β : Type} {s : Session Records}

/-- How an operation is opened: the leftover rotation is settled, or it is blocked and nothing is
changed. -/
def Opened (x : Records) (r : Except Fault Unit) (t : Session Records) : Prop :=
  (r = .ok () ∧ Resolves x t.store) ∨
    ∃ fault, Blocked x fault ∧ r = .error (.malformed fault) ∧ t.store = x

private theorem opened_of_resolves (h : Resolves s.store y) :
    Assures False (fun _ => True) settle (Opened s.store) s := by
  refine (assures_settle_of_resolves steady_true h trivial).mono (fun _ _ => trivial) ?_
  rintro r t ⟨-, -, -, -, ⟨rfl, rfl⟩ | ⟨hf, -⟩⟩
  · exact .inl ⟨rfl, h⟩
  · exact hf.elim

theorem opened_settle (s : Session Records) :
    Assures False (fun _ => True) settle (Opened s.store) s := by
  cases hb : s.store[Key.stagedCredential]? with
  | none => exact opened_of_resolves (.refl (Records.getElem?_eq_none_iff.mp hb))
  | some bytes =>
    have hm : Key.stagedCredential ∈ s.store := Records.mem_of_getElem? hb
    cases hr : Credential.read bytes with
    | error fault =>
      rw [settle, assures_fetch_bind, hb]
      simp only [readCredential, hr]
      exact .inr ⟨fault, ⟨hm, _, bytes, .inl rfl, hb, hr⟩, rfl, rfl⟩
    | ok c =>
      have hc : Staged s.store c := ⟨bytes, hb, hr⟩
      cases hd : s.store[Key.credential]? with
      | none =>
        have hn := Records.getElem?_eq_none_iff.mp hd
        obtain ⟨y, hy⟩ := exists_resolves fun _ => ⟨⟨c, hc⟩, fun h => absurd h hn⟩
        exact opened_of_resolves hy
      | some stored =>
        cases hr' : Credential.read stored with
        | error fault =>
          rw [settle, assures_fetch_bind, hb]
          simp only []
          rw [assures_readCredential hr, loadCredential, bind_assoc, assures_fetch_bind, hd]
          simp only [readCredential, hr']
          exact .inr ⟨fault, ⟨hm, _, stored, .inr rfl, hd, hr'⟩, rfl, rfl⟩
        | ok d =>
          obtain ⟨y, hy⟩ := exists_resolves fun _ => ⟨⟨c, hc⟩, fun _ => ⟨d, stored, hd, hr'⟩⟩
          exact opened_of_resolves hy

theorem opened_shared (s : Session Records) :
    Assures False (fun _ => True) shared (Opened s.store) s := by
  rw [shared, sharedFor, assures_fetch_bind]
  cases hb : s.store[Key.stagedCredential]? with
  | none => exact .inl ⟨rfl, .refl (Records.getElem?_eq_none_iff.mp hb)⟩
  | some bytes =>
    refine assures_bind ((opened_settle s).mono (fun _ hr => hr) ?_)
    rintro r t (⟨rfl, hy⟩ | ⟨fault, hblocked, rfl, ht⟩)
    · -- the second look finds nothing staged
      simp only [continued, sharedFor]
      rw [assures_fetch_bind, hy.stagedCredential]
      exact .inl ⟨rfl, hy⟩
    · exact .inr ⟨fault, hblocked, rfl, ht⟩

variable {op : Operation} {why : Fault → Prop} {answers : α → Prop}

/-- How an operation ends is accounted for by the records there were. -/
def Accounted (op : Operation) (x : Records) (r : Except Fault α) (t : Session Records) : Prop :=
  match r with
  | .ok _ => op.Served x
  | .error fault => op.Due x fault t.store

/-- Whatever the records hold, the end of the action is accounted for as one of the operation. -/
def Accountable (op : Operation) (act : Action α) : Prop :=
  ∀ s : Session Records, Assures False (fun _ => True) act (Accounted op s.store) s

/-- Once it has been opened, an operation decides by what it finds among settled records. -/
theorem accountable_of_opened {opening : Action Unit} {f : Unit → Action α}
    (hopening : ∀ s, Assures False (fun _ => True) opening (Opened s.store) s)
    (hfit : ∀ fault, ¬ op.Unfit fault)
    (hf : ∀ y, Decides y (op.Reason y) (∀ fault, ¬ op.Finds y fault) (f ())) :
    Accountable op (opening >>= f) := by
  intro s
  refine assures_bind ((hopening s).mono (fun _ hr => hr) ?_)
  rintro r t (⟨rfl, hy⟩ | ⟨fault, hblocked, rfl, ht⟩)
  · refine (hf _ t rfl).mono (fun _ hr => hr) ?_
    rintro (fault | a) u hr
    · obtain ⟨hu, hreason⟩ := hr
      simp only [Accounted, hu]
      exact .objected hfit hy hreason
    · exact ⟨hfit, _, hy, hr⟩
  · simp only [continued, Accounted, ht]
    exact .blocked hfit hblocked

/-- What becomes of an answer makes no difference. -/
theorem accounted_map {act : Action α} {x : Records} (g : α → β)
    (h : Assures False (fun _ => True) act (Accounted op x) s) :
    Assures False (fun _ => True) (g <$> act) (Accounted op x) s := by
  refine assures_map g (h.mono (fun _ hr => hr) ?_)
  rintro (fault | a) t hr
  · exact hr
  · exact hr

/-- What loading the credential finds. -/
def Loaded (y : Records) : Option Credential → Prop
  | none => y[Key.credential]? = none
  | some c => Stored y c

/-- The record of an owner has been read, and names that owner. -/
def Kept (y : Records) (owner : String) (p : SealedPhrase) : Prop :=
  ∃ bytes, y[Key.phrase owner]? = some bytes ∧ SealedPhrase.read bytes = .ok p ∧ p.owner = owner

/-- The record of an owner can be opened. -/
def Sound (y : Records) (owner : String) : Prop :=
  ∃ p, Kept y owner p ∧ ∀ fault, ¬ Sealing.Spoilt p.cipher p.iv fault

/-- Nothing is found unusable when all that is read has been of use. -/
theorem not_finds (hcredential : op.readsCredential → ∃ found, Loaded y found)
    (hhash : op.comparesHash → ∃ c, Stored y c ∧ ∀ fault, ¬ c.Unusable fault)
    (hphrase : ∀ owner, op.ReadsPhrase owner → Key.phrase owner ∈ y → Sound y owner)
    (fault : Fault) : ¬ op.Finds y fault := by
  intro h
  cases h with
  | credentialMalformed hop h hr =>
    obtain ⟨_ | c, hc⟩ := hcredential hop
    · cases h.symm.trans hc
    · obtain ⟨bytes, hb, hread⟩ := hc
      cases h.symm.trans hb
      cases hr.symm.trans hread
  | hashUnusable hop hc h =>
    obtain ⟨d, hd, hn⟩ := hhash hop
    rw [hc.unique hd] at h
    exact hn _ h
  | phraseMalformed hop h hr =>
    obtain ⟨p, ⟨bytes, hb, hread, -⟩, -⟩ := hphrase _ hop (Records.mem_of_getElem? h)
    cases h.symm.trans hb
    cases hr.symm.trans hread
  | phraseForeign hop h hr ho =>
    obtain ⟨p, ⟨bytes, hb, hread, howner⟩, -⟩ := hphrase _ hop (Records.mem_of_getElem? h)
    cases h.symm.trans hb
    cases hr.symm.trans hread
    exact ho howner
  | phraseSpoilt hop h hr ho hs =>
    obtain ⟨p, ⟨bytes, hb, hread, -⟩, hn⟩ := hphrase _ hop (Records.mem_of_getElem? h)
    cases h.symm.trans hb
    cases hr.symm.trans hread
    exact hn _ hs

theorem examines_loadCredential (hop : op.readsCredential) :
    Examines y (op.Reason y) (Loaded y) loadCredential := by
  refine (examines_fetch _).bind ?_
  rintro (_ | bytes) hb
  · exact examines_pure hb.symm
  · have hread : Examines y (op.Reason y) (Stored y) (readCredential bytes) :=
      examines_outcome (fun c hc => ⟨bytes, hb.symm, hc⟩)
        fun fault hf => .inl (.credentialMalformed hop hb.symm hf)
    exact hread.bind fun c hc => examines_pure hc

theorem examines_requireCredential (hop : op.readsCredential) :
    Examines y (op.Reason y) (Stored y) requireCredential := by
  refine (examines_loadCredential hop).bind ?_
  rintro (_ | c) hc
  · exact examines_throw (.inr (.noCredential hc))
  · exact examines_pure hc

theorem examines_matching (hop : op.comparesHash) {c : Credential} (hc : Stored y c)
    (candidate : String) :
    Examines y (op.Reason y) (fun accepted => c.accepts candidate = .ok accepted)
      (matching c candidate) :=
  examines_outcome (fun _ ha => ha) fun _ hf =>
    .inl (.hashUnusable hop hc (Credential.unusable_of_accepts hf))

theorem examines_demand (hop : op.comparesHash) {c : Credential} (hc : Stored y c)
    {candidate : String} (hd : op.demanded? = some candidate) :
    Examines y (op.Reason y) (fun _ => ∀ fault, ¬ c.Unusable fault) (demand c candidate) := by
  refine (examines_matching hop hc candidate).bind ?_
  rintro (_ | _) ha
  · obtain ⟨hash, hh, hl, hne⟩ := Credential.exists_hash_of_accepts ha
    exact examines_throw (.inr (.wrongPassword hd hc hh hl fun he => nomatch hne.mpr he))
  · exact examines_pure (Credential.not_unusable_of_accepts ha)

theorem examines_newCredential {password : String} (hop : op.renewal? = some password) :
    Examines y (op.Reason y) (fun _ => True) (newCredential password) := by
  intro s hs
  rw [← bind_pure (newCredential password)]
  by_cases hp : password = ""
  · subst hp
    rw [assures_newCredential_empty]
    exact ⟨hs, .inr (.emptyPassword hop)⟩
  · rw [assures_newCredential hp]
    exact ⟨hs, trivial⟩

theorem examines_sealPhrase (owner phrase : String) (c : Credential) (password : String) :
    Examines y why (fun _ => True) (sealPhrase owner phrase c password) := by
  intro s hs
  rw [← bind_pure (sealPhrase owner phrase c password), assures_sealPhrase]
  exact ⟨hs, trivial⟩

theorem examines_requirePhrase {owner : String} (hop : op.ReadsPhrase owner)
    (hnone : y[Key.phrase owner]? = none → op.Reason y (.phraseNotFound owner)) :
    Examines y (op.Reason y) (Kept y owner) (requirePhrase owner) := by
  have hload : Examines y (op.Reason y)
      (fun found => found.elim (y[Key.phrase owner]? = none) (Kept y owner)) (loadPhrase owner) := by
    refine (examines_fetch _).bind ?_
    rintro (_ | bytes) hb
    · exact examines_pure hb.symm
    · have hread : Examines y (op.Reason y) (fun p => SealedPhrase.read bytes = .ok p)
          (readPhrase bytes) :=
        examines_outcome (fun _ hr => hr) fun _ hf => .inl (.phraseMalformed hop hb.symm hf)
      refine hread.bind fun p hr => ?_
      by_cases ho : p.owner = owner
      · rw [if_neg (not_not_intro ho)]
        exact examines_pure ⟨bytes, hb.symm, hr, ho⟩
      · rw [if_pos ho]
        exact examines_throw_bind (.inl (.phraseForeign hop hb.symm hr ho))
  refine hload.bind ?_
  rintro (_ | p) hp
  · exact examines_throw (hnone hp)
  · exact examines_pure hp

theorem examines_openPhrase {owner : String} (hop : op.ReadsPhrase owner) {p : SealedPhrase}
    (hp : Kept y owner p) (c : Credential) (password : String) :
    Examines y (op.Reason y) (fun _ => Sound y owner) (openPhrase p c password) := by
  refine examines_outcome (fun _ ht => ⟨p, hp, Sealing.not_spoilt_of_decrypt ht⟩) fun fault hf => ?_
  obtain ⟨bytes, hb, hr, ho⟩ := hp
  have hs := Sealing.spoilt_of_decrypt (length_cipherKey c password) hf
  have hfound := Operation.Finds.phraseSpoilt hop hb hr ho hs
  rw [← ho] at hfound
  cases hs <;> exact .inl hfound

theorem examines_resealAll (hop : ∀ owner, op.ReadsPhrase owner) (old next : Credential)
    (current password : String) {owners : List String}
    (h : ∀ owner ∈ owners, Key.phrase owner ∈ y) :
    Examines y (op.Reason y) (fun _ => ∀ owner ∈ owners, Sound y owner)
      (resealAll old current next password owners) := by
  induction owners with
  | nil => exact examines_pure nofun
  | cons owner owners ih =>
    have hread := examines_requirePhrase (hop owner) fun hn =>
      absurd (h owner List.mem_cons_self) (Records.getElem?_eq_none_iff.mp hn)
    refine hread.bind fun p hp => ?_
    refine (examines_openPhrase (hop owner) hp old current).bind fun phrase hsound => ?_
    refine (examines_sealPhrase owner phrase next password).bind fun resealed _ => ?_
    refine (ih fun o ho => h o (List.mem_cons_of_mem _ ho)).bind fun ps hps => ?_
    exact examines_pure (List.forall_mem_cons.mpr ⟨hsound, hps⟩)

/-- Nothing is objected to where only the existence of a record matters. -/
theorem accountable_isSome (key : String) (hfit : ∀ fault, ¬ op.Unfit fault)
    (hclear : ∀ y fault, ¬ op.Finds y fault) :
    Accountable op (do shared; return (← fetch key).isSome) := by
  refine accountable_of_opened opened_shared hfit fun y => ?_
  exact (examines_fetch key).bind_decides fun _ _ => (succeeds_pure _).decides (hclear y)

theorem accountable_hasPassword : Accountable .hasPassword Vault.hasPassword :=
  accountable_isSome Key.credential (fun _ => nofun) fun _ => not_finds nofun nofun nofun

theorem accountable_hasPhrase (owner : String) :
    Accountable (.hasPhrase owner) (Vault.hasPhrase owner) :=
  accountable_isSome (Key.phrase owner) (fun _ => nofun) fun _ => not_finds nofun nofun nofun

theorem accountable_state : Accountable .state Vault.state := by
  refine accountable_of_opened opened_shared (fun _ => nofun) fun y => ?_
  refine (examines_loadCredential rfl).bind_decides fun found hfound => ?_
  have hclear : ∀ fault, ¬ Operation.state.Finds y fault :=
    not_finds (fun _ => ⟨found, hfound⟩) nofun nofun
  cases found with
  | none => exact (succeeds_pure _).decides hclear
  | some c => exact examines_sealedOwners.bind_decides fun _ _ => (succeeds_pure _).decides hclear

theorem accountable_setPassword (password : String) :
    Accountable (.setPassword password) (Vault.setPassword password) := by
  refine accountable_of_opened opened_settle (fun _ => nofun) fun y => ?_
  refine examines_sealedOwners.bind_decides fun owners ho => ?_
  subst ho
  refine .ite (fun hn => decides_throw_bind (.inr (.phrasesSealed rfl hn))) fun _ => ?_
  refine (examines_loadCredential rfl).bind_decides fun found hfound => ?_
  refine (examines_newCredential rfl).bind_decides fun c _ => ?_
  refine ((succeeds_put _ _).bind fun _ => succeeds_report _).decides ?_
  exact not_finds (fun _ => ⟨found, hfound⟩) nofun nofun

theorem accountable_verifyPassword (candidate : String) :
    Accountable (.verifyPassword candidate) (Vault.verifyPassword candidate) := by
  refine accountable_of_opened opened_shared (fun _ => nofun) fun y => ?_
  refine (examines_requireCredential rfl).bind_decides fun c hc => ?_
  refine (examines_matching rfl hc candidate).bind_decides fun accepted ha => ?_
  have hclear : ∀ fault, ¬ (Operation.verifyPassword candidate).Finds y fault :=
    not_finds (fun _ => ⟨some c, hc⟩)
      (fun _ => ⟨c, hc, Credential.not_unusable_of_accepts ha⟩) nofun
  cases accepted with
  | false => exact ((succeeds_report _).bind fun _ => succeeds_pure _).decides hclear
  | true => exact (succeeds_pure _).decides hclear

theorem accountable_changePassword (current password : String) :
    Accountable (.changePassword current password) (Vault.changePassword current password) := by
  refine accountable_of_opened opened_settle (fun _ => nofun) fun y => ?_
  refine (examines_requireCredential rfl).bind_decides fun old hold => ?_
  refine (examines_demand rfl hold rfl).bind_decides fun _ husable => ?_
  refine (examines_newCredential rfl).bind_decides fun next _ => ?_
  refine examines_sealedOwners.bind_decides fun owners ho => ?_
  subst ho
  have hop : ∀ owner, (Operation.changePassword current password).ReadsPhrase owner :=
    fun _ => trivial
  refine (examines_resealAll hop old next current password fun _ => Records.mem_owners.mp).bind_decides
    fun resealed hsound => ?_
  -- all has been read that is read, and from here on the store is changed
  refine Succeeds.decides ((succeeds_stage next resealed).attempt_bind fun _ => ?_)
    (not_finds (fun _ => ⟨some old, hold⟩) (fun _ => ⟨old, hold, husable⟩)
      fun owner _ hm => hsound owner (Records.mem_owners.mpr hm))
  refine (succeeds_attempt settle).bind ?_
  rintro (fault | _)
  · exact (succeeds_report _).bind fun _ => succeeds_report _
  · exact succeeds_report _

theorem accountable_sealFor (owner phrase password : String) :
    Accountable (.sealFor owner phrase password) (Vault.sealFor owner phrase password) := by
  rw [Vault.sealFor]
  by_cases ho : owner = ""
  · subst ho
    rw [if_pos rfl]
    exact fun s => .unfit (.owner phrase password)
  rw [if_neg ho]
  by_cases hblank : isBlank phrase
  · rw [if_pos hblank]
    exact fun s => .unfit (.phrase ho hblank password)
  rw [if_neg hblank]
  have hfit : ∀ fault, ¬ (Operation.sealFor owner phrase password).Unfit fault := by
    rintro fault (⟨_, _⟩ | ⟨_, h, _⟩)
    · exact ho rfl
    · exact hblank h
  refine accountable_of_opened opened_settle hfit fun y => ?_
  refine (examines_requireCredential rfl).bind_decides fun c hc => ?_
  refine (examines_demand rfl hc rfl).bind_decides fun _ husable => ?_
  refine (examines_fetch _).bind_decides fun bytes hb => ?_
  refine .ite (fun hs => decides_throw_bind (.inr (.phraseExists rfl ?_))) fun _ => ?_
  · rwa [← hb, ← Option.isSome_iff_ne_none]
  · refine (examines_sealPhrase owner phrase c password).bind_decides fun p _ => ?_
    refine ((succeeds_put _ _).bind fun _ => (succeeds_report _).bind fun _ =>
      succeeds_pure _).decides ?_
    exact not_finds (fun _ => ⟨some c, hc⟩) (fun _ => ⟨c, hc, husable⟩) fun _ => False.elim

theorem accountable_reveal (owner password : String) :
    Accountable (.reveal owner password) (Vault.reveal owner password) := by
  refine accountable_of_opened opened_shared (fun _ => nofun) fun y => ?_
  refine (examines_requireCredential rfl).bind_decides fun c hc => ?_
  have hop : (Operation.reveal owner password).ReadsPhrase owner := rfl
  refine (examines_requirePhrase hop fun hn => .inr (.noPhrase rfl hn)).bind_decides fun p hp => ?_
  refine (examines_openPhrase hop hp c password).decides fun _ hsound => ?_
  refine not_finds (fun _ => ⟨some c, hc⟩) nofun ?_
  rintro _ rfl -
  exact hsound

theorem accountable_owners : Accountable .owners Vault.owners := by
  refine accountable_of_opened opened_shared (fun _ => nofun) fun y => ?_
  exact examines_sealedOwners.decides fun _ _ => not_finds nofun nofun nofun

theorem accountable_remove (owner : String) : Accountable (.remove owner) (Vault.remove owner) := by
  refine accountable_of_opened opened_settle (fun _ => nofun) fun y => ?_
  refine (examines_fetch _).bind_decides fun bytes hb => ?_
  refine .ite (fun hn => decides_throw_bind (.inr (.noPhrase rfl ?_))) fun _ => ?_
  · rwa [← hb, ← Option.isNone_iff_eq_none]
  · refine ((succeeds_erase _).bind fun _ => succeeds_report _).decides ?_
    exact not_finds nofun nofun nofun

theorem accountable_wipe : Accountable .wipe Vault.wipe := by
  refine accountable_of_opened opened_settle (fun _ => nofun) fun y => ?_
  refine examines_sealedOwners.bind_decides fun owners _ => ?_
  refine ((succeeds_deletePhrases owners).bind fun _ => (succeeds_erase _).bind fun _ =>
    succeeds_report _).decides ?_
  exact not_finds nofun nofun nofun

theorem accounted_program (op : Operation) (s : Session Records) :
    Assures False (fun _ => True) op.program (Accounted op s.store) s := by
  cases op with
  | hasPassword => exact accounted_map _ (accountable_hasPassword s)
  | state => exact accounted_map _ (accountable_state s)
  | setPassword password => exact accounted_map _ (accountable_setPassword password s)
  | verifyPassword candidate => exact accounted_map _ (accountable_verifyPassword candidate s)
  | changePassword current password =>
    exact accounted_map _ (accountable_changePassword current password s)
  | sealFor owner phrase password =>
    exact accounted_map _ (accountable_sealFor owner phrase password s)
  | reveal owner password => exact accounted_map _ (accountable_reveal owner password s)
  | hasPhrase owner => exact accounted_map _ (accountable_hasPhrase owner s)
  | owners => exact accounted_map _ (accountable_owners s)
  | remove owner => exact accounted_map _ (accountable_remove owner s)
  | wipe => exact accounted_map _ (accountable_wipe s)

end Action

/-- Whatever the records hold, a request ends as the operation may that it comes to. -/
theorem Request.accounted (q : Request) (s : Session Records) :
    Action.Accounted (q.operation s.ids) s.store (q.program.run.run s).1 (q.program.run.run s).2 := by
  have h : Action.Assures False (fun _ => True) q.program
      (Action.Accounted (q.operation s.ids) s.store) s := by
    cases q with
    | perform op => exact Action.accounted_program op s
    | sealNew phrase password =>
      refine Action.accounted_map _ ((Action.assures_mint_bind _).mpr ?_)
      exact Action.accountable_sealFor _ phrase password { s with ids := s.ids.tail }
  exact Program.post_of_run_records h

end PhraseVault.Vault
