import PhraseVault.Proofs.Vault.Guard

/-!
# Operations that differ in a phrase keep step

Two programs keep step if they make the same calls, whatever is replied, as long as the replies are
alike: the same, except that the ciphers of phrases may differ. So no call, no log line and no result
but a revealed text depends on what a phrase is.
-/
namespace PhraseVault.Vault

/-- A sealed phrase that can be written and read, and opened by any key. -/
structure Openable (p : SealedPhrase) : Prop where
  size : p.iv.sigBytes < Json.wordLimit
  opens : ∀ key : Bytes, key.length = Sealing.keyLength →
    ∃ text, Sealing.decrypt p.cipher key p.iv = .ok text

/-- Phrases of one owner, sealed with the same vector. -/
structure Twins (owner : String) (p p' : SealedPhrase) : Prop where
  left : p.owner = owner
  right : p'.owner = owner
  iv : p.iv = p'.iv
  openable : Openable p
  openable' : Openable p'

/-- Records of phrases that only differ in their ciphers. -/
def LikePhrases (owner : String) (bytes bytes' : Bytes) : Prop :=
  ∃ p p', bytes = p.write ∧ bytes' = p'.write ∧ Twins owner p p'

/-- What is under a key here and there: the same, but for the ciphers of phrases. -/
structure LikeAt (key : String) (v v' : Option Bytes) : Prop where
  phrase : ∀ owner, key = Key.phrase owner ∨ key = Key.stagedPhrase owner →
    Option.Rel (LikePhrases owner) v v'
  other : (∀ owner, key ≠ Key.phrase owner ∧ key ≠ Key.stagedPhrase owner) → v = v'

theorem likeAt_phrase {owner : String} {v v' : Option Bytes} :
    LikeAt (Key.phrase owner) v v' ↔ Option.Rel (LikePhrases owner) v v' := by
  refine ⟨fun h => h.phrase owner (.inl rfl), fun h => ⟨?_, fun hk => absurd rfl (hk owner).1⟩⟩
  rintro o (ho | ho)
  · exact Key.phrase_inj.mp ho ▸ h
  · exact absurd ho (Key.phrase_ne_stagedPhrase owner o)

theorem likeAt_stagedPhrase {owner : String} {v v' : Option Bytes} :
    LikeAt (Key.stagedPhrase owner) v v' ↔ Option.Rel (LikePhrases owner) v v' := by
  refine ⟨fun h => h.phrase owner (.inr rfl), fun h => ⟨?_, fun hk => absurd rfl (hk owner).2⟩⟩
  rintro o (ho | ho)
  · exact absurd ho (Key.stagedPhrase_ne_phrase owner o)
  · exact Key.stagedPhrase_inj.mp ho ▸ h

theorem likeAt_credential {v v' : Option Bytes} : LikeAt Key.credential v v' ↔ v = v' := by
  refine ⟨fun h => h.other fun owner => by simp, fun h => ⟨fun owner => by simp, fun _ => h⟩⟩

theorem likeAt_stagedCredential {v v' : Option Bytes} :
    LikeAt Key.stagedCredential v v' ↔ v = v' := by
  refine ⟨fun h => h.other fun owner => by simp, fun h => ⟨fun owner => by simp, fun _ => h⟩⟩

/-- Where there is a record here, there is one there. -/
theorem LikeAt.isSome_eq {key : String} {v v' : Option Bytes} (h : LikeAt key v v') :
    v.isSome = v'.isSome := by
  by_cases hk : ∃ owner, key = Key.phrase owner ∨ key = Key.stagedPhrase owner
  · obtain ⟨owner, hk⟩ := hk
    cases h.phrase owner hk <;> rfl
  · rw [h.other fun owner => not_or.mp (not_exists.mp hk owner)]

theorem likeAt_none (key : String) : LikeAt key none none := ⟨fun _ _ => .none, fun _ => rfl⟩

/-- Replies to a look that are alike. -/
def LikeReply (key : String) : Except IoFault (Option Bytes) → Except IoFault (Option Bytes) → Prop
  | .ok v, .ok v' => LikeAt key v v'
  | .error fault, .error fault' => fault = fault'
  | _, _ => False

namespace Program
variable {α β : Type}

/-- The programs make the same calls as long as the replies are alike, only write what is alike, and
end as `post` says. -/
def InStep : Program α → Program α → (α → α → Prop) → Prop
  | done a, done a', post => post a a'
  | get key next, get key' next', post =>
    key = key' ∧ ∀ r r', LikeReply key r r' → (next r).InStep (next' r') post
  | set key value next, set key' value' next', post =>
    key = key' ∧ LikeAt key (some value) (some value') ∧ ∀ r, (next r).InStep (next' r) post
  | delete key next, delete key' next', post => key = key' ∧ ∀ r, (next r).InStep (next' r) post
  | keys next, keys next', post => ∀ r, (next r).InStep (next' r) post
  | draw count next, draw count' next', post =>
    count = count' ∧ ∀ bytes : Bytes, bytes.length = count → (next bytes).InStep (next' bytes) post
  | mint next, mint next', post => ∀ id, (next id).InStep (next' id) post
  | log event next, log event' next', post => event = event' ∧ (next ()).InStep (next' ()) post
  | _, _, _ => False

theorem InStep.bind {mid : α → α → Prop} {post : β → β → Prop} {p p' : Program α}
    {f f' : α → Program β} (h : p.InStep p' mid)
    (hf : ∀ a a', mid a a' → (f a).InStep (f' a') post) : (p.bind f).InStep (p'.bind f') post := by
  induction p generalizing p' with
  | done a =>
    cases p' with
    | done a' => exact hf a a' h
    | _ => exact h.elim
  | get key next ih =>
    cases p' with
    | get key' next' => exact ⟨h.1, fun r r' hr => ih r (h.2 r r' hr)⟩
    | _ => exact h.elim
  | set key value next ih =>
    cases p' with
    | set key' value' next' => exact ⟨h.1, h.2.1, fun r => ih r (h.2.2 r)⟩
    | _ => exact h.elim
  | delete key next ih =>
    cases p' with
    | delete key' next' => exact ⟨h.1, fun r => ih r (h.2 r)⟩
    | _ => exact h.elim
  | keys next ih =>
    cases p' with
    | keys next' => exact fun r => ih r (h r)
    | _ => exact h.elim
  | draw count next ih =>
    cases p' with
    | draw count' next' => exact ⟨h.1, fun bytes hb => ih bytes (h.2 bytes hb)⟩
    | _ => exact h.elim
  | mint next ih =>
    cases p' with
    | mint next' => exact fun id => ih id (h id)
    | _ => exact h.elim
  | log event next ih =>
    cases p' with
    | log event' next' => exact ⟨h.1, ih () h.2⟩
    | _ => exact h.elim

end Program

/-- Both succeed with answers that go together, or both fail for the same reason. -/
def LikeOutcome {α : Type} (post : α → α → Prop) : Except Fault α → Except Fault α → Prop
  | .ok a, .ok a' => post a a'
  | .error fault, .error fault' => fault = fault'
  | _, _ => False

namespace Action
variable {α β : Type} {mid : α → α → Prop} {post : β → β → Prop}

/-- The actions keep step, with outcomes that go together. -/
def InStep (act act' : Action α) (post : α → α → Prop) : Prop :=
  Program.InStep act.run act'.run (LikeOutcome post)

theorem inStep_bind {act act' : Action α} {f f' : α → Action β} (h : InStep act act' mid)
    (hf : ∀ a a', mid a a' → InStep (f a) (f' a') post) :
    InStep (act >>= f) (act' >>= f') post := by
  refine Program.InStep.bind h fun r r' hr => ?_
  cases r <;> cases r' <;> first | exact hr.elim | skip
  · exact hr
  · exact hf _ _ hr

/-- What follows an action that comes to the same. -/
theorem inStep_bind_eq {act act' : Action α} {f f' : α → Action β} (h : InStep act act' Eq)
    (hf : ∀ a, InStep (f a) (f' a) post) : InStep (act >>= f) (act' >>= f') post :=
  inStep_bind h fun a _ he => he ▸ hf a

theorem inStep_pure {b b' : β} (h : post b b') : InStep (pure b) (pure b') post := h

theorem inStep_throw (fault : Fault) : InStep (throw fault : Action β) (throw fault) post :=
  (rfl : fault = fault)

theorem inStep_map {g : α → β} {act act' : Action α} (h : InStep act act' mid)
    (hg : ∀ a a', mid a a' → post (g a) (g a')) : InStep (g <$> act) (g <$> act') post := by
  rw [map_eq_pure_bind, map_eq_pure_bind]
  exact inStep_bind h fun a a' ha => inStep_pure (hg a a' ha)

theorem inStep_ite {c c' : Prop} [Decidable c] [Decidable c'] {act act' other other' : Action β}
    (hc : c ↔ c') (h : InStep act act' post) (ho : InStep other other' post) :
    InStep (if c then act else other) (if c' then act' else other') post := by
  by_cases hp : c
  · rw [if_pos hp, if_pos (hc.mp hp)]
    exact h
  · rw [if_neg hp, if_neg (mt hc.mpr hp)]
    exact ho

theorem inStep_outcome (r : Except Fault β) : InStep (outcome r) (outcome r) Eq := by
  cases r <;> exact rfl

/-- Attempts are told apart by their outcomes alone. -/
theorem inStep_attempt {act act' : Action α} (h : InStep act act' mid) :
    InStep (attempt act) (attempt act') (LikeOutcome mid) :=
  Program.InStep.bind h fun _ _ hr => hr

section Calls

theorem inStep_fetch (key : String) : InStep (fetch key) (fetch key) (LikeAt key) := by
  refine ⟨rfl, fun r r' hr => ?_⟩
  cases r <;> cases r' <;> first | exact hr.elim | skip
  · exact congrArg Fault.io hr
  · exact hr

theorem inStep_put {key : String} {value value' : Bytes} (h : LikeAt key (some value) (some value')) :
    InStep (put key value) (put key value') Eq :=
  ⟨rfl, h, fun r => by cases r <;> exact rfl⟩

theorem inStep_erase (key : String) : InStep (erase key) (erase key) Eq :=
  ⟨rfl, fun r => by cases r <;> exact rfl⟩

theorem inStep_listKeys : InStep listKeys listKeys Eq := fun r => by cases r <;> exact rfl

theorem inStep_draw (count : Nat) :
    InStep (draw count) (draw count) fun b b' => b = b' ∧ b.length = count :=
  ⟨rfl, fun _ hb => ⟨rfl, hb⟩⟩

theorem inStep_mint : InStep mint mint Eq := fun _ => rfl

theorem inStep_report (event : Event) : InStep (report event) (report event) Eq := ⟨rfl, rfl⟩

end Calls

section Parts

theorem inStep_readCredential (bytes : Bytes) :
    InStep (readCredential bytes) (readCredential bytes) Eq :=
  inStep_outcome _

theorem inStep_loadCredential : InStep loadCredential loadCredential Eq := by
  refine inStep_bind (inStep_fetch _) fun v v' hv => ?_
  obtain rfl := likeAt_credential.mp hv
  cases v with
  | none => exact inStep_pure rfl
  | some bytes => exact inStep_bind_eq (inStep_readCredential bytes) fun _ => inStep_pure rfl

theorem inStep_requireCredential : InStep requireCredential requireCredential Eq := by
  refine inStep_bind_eq inStep_loadCredential fun c => ?_
  cases c with
  | none => exact inStep_throw _
  | some c => exact inStep_pure rfl

theorem inStep_saveCredential (c : Credential) : InStep (saveCredential c) (saveCredential c) Eq :=
  inStep_put (likeAt_credential.mpr rfl)

theorem inStep_unstage (committed : Bool) (owners : List String) :
    InStep (unstage committed owners) (unstage committed owners) Eq := by
  induction owners with
  | nil => exact inStep_pure rfl
  | cons owner owners ih =>
    have hrest : InStep (do erase (Key.stagedPhrase owner); unstage committed owners)
        (do erase (Key.stagedPhrase owner); unstage committed owners) Eq :=
      inStep_bind_eq (inStep_erase _) fun _ => ih
    rw [unstage]
    refine inStep_ite Iff.rfl (inStep_bind (inStep_fetch _) fun v v' hv => ?_) hrest
    have hphrase := likeAt_stagedPhrase.mp hv
    cases hphrase with
    | none => exact hrest
    | some h => exact inStep_bind_eq (inStep_put (likeAt_phrase.mpr (.some h))) fun _ => hrest

theorem inStep_settle : InStep settle settle Eq := by
  refine inStep_bind (inStep_fetch _) fun v v' hv => ?_
  obtain rfl := likeAt_stagedCredential.mp hv
  cases v with
  | none => exact inStep_pure rfl
  | some bytes =>
    refine inStep_bind_eq (inStep_readCredential bytes) fun staged => ?_
    refine inStep_bind_eq inStep_loadCredential fun stored => ?_
    refine inStep_bind_eq inStep_listKeys fun keys => ?_
    refine inStep_bind_eq (inStep_unstage _ _) fun _ => ?_
    exact inStep_bind_eq (inStep_erase _) fun _ => inStep_report _

theorem inStep_sharedFor (rounds : Nat) : InStep (sharedFor rounds) (sharedFor rounds) Eq := by
  induction rounds with
  | zero => exact inStep_throw _
  | succ rounds ih =>
    refine inStep_bind (inStep_fetch _) fun v v' hv => ?_
    obtain rfl := likeAt_stagedCredential.mp hv
    cases v with
    | none => exact inStep_pure rfl
    | some bytes => exact inStep_bind_eq inStep_settle fun _ => ih

theorem inStep_newCredential (password : String) :
    InStep (newCredential password) (newCredential password) Eq := by
  have hsalt : InStep drawSalt drawSalt Eq :=
    inStep_bind (inStep_draw _) fun b b' hb => inStep_pure (congrArg Entropy.saltOf hb.1)
  refine inStep_ite Iff.rfl (inStep_throw _) ?_
  exact inStep_bind_eq hsalt fun _ => inStep_bind_eq hsalt fun _ => inStep_pure rfl

theorem inStep_matching (c : Credential) (password : String) :
    InStep (matching c password) (matching c password) Eq :=
  inStep_outcome _

theorem inStep_demand (c : Credential) (password : String) :
    InStep (demand c password) (demand c password) Eq :=
  inStep_bind_eq (inStep_matching c password) fun _ =>
    inStep_ite Iff.rfl (inStep_pure rfl) (inStep_throw _)

theorem inStep_sealedOwners : InStep sealedOwners sealedOwners Eq :=
  inStep_bind_eq inStep_listKeys fun _ => inStep_pure rfl

theorem openable_of_encrypt {key : Bytes} {p : SealedPhrase} {text : String}
    (hsize : p.iv.sigBytes < Json.wordLimit) (hk : key.length = Sealing.keyLength)
    (hiv : p.iv.Usable) (h : Sealing.encrypt text key p.iv = .ok p.cipher) : Openable p where
  size := hsize
  opens _ hl := Sealing.exists_decrypt (hl.trans hk.symm) (Sealing.decrypt_of_encrypt hk hiv h)

/-- Sealing takes the same vector whatever it seals. -/
theorem inStep_sealPhrase (owner phrase phrase' : String) (c : Credential) (password : String) :
    InStep (sealPhrase owner phrase c password) (sealPhrase owner phrase' c password)
      (Twins owner) := by
  have hiv : InStep drawIv drawIv fun iv iv' =>
      iv = iv' ∧ ∃ b : Bytes, b.length = Iv.freshLength ∧ iv = Iv.pack b :=
    inStep_bind (inStep_draw _) fun b b' hb =>
      inStep_pure ⟨congrArg Iv.pack hb.1, b, hb.2, rfl⟩
  refine inStep_bind hiv ?_
  rintro _ _ ⟨rfl, b, hb, rfl⟩
  have husable : (Iv.pack b).Usable := Iv.usable_pack (by rw [hb]; decide)
  have hsize : (Iv.pack b).sigBytes < Json.wordLimit := by
    simp only [Iv.pack, hb]
    decide
  have hk := length_cipherKey c password
  have hseal := fun text => Sealing.encrypt_of_usable hk husable text
  rw [hseal, hseal]
  exact inStep_pure ⟨rfl, rfl, rfl, openable_of_encrypt hsize hk husable (hseal phrase),
    openable_of_encrypt hsize hk husable (hseal phrase')⟩

theorem inStep_loadPhrase (owner : String) :
    InStep (loadPhrase owner) (loadPhrase owner) (Option.Rel (Twins owner)) := by
  refine inStep_bind (inStep_fetch _) fun v v' hv => ?_
  have hphrase := likeAt_phrase.mp hv
  cases hphrase with
  | none => exact inStep_pure .none
  | some h =>
    obtain ⟨p, p', hb, hb', htwins⟩ := h
    rw [hb, hb']
    simp only [readPhrase, SealedPhrase.read_write htwins.openable.size,
      SealedPhrase.read_write htwins.openable'.size]
    change InStep (if p.owner ≠ owner then _ else _) (if p'.owner ≠ owner then _ else _) _
    rw [if_neg (not_not.mpr htwins.left), if_neg (not_not.mpr htwins.right)]
    exact inStep_pure (.some htwins)

theorem inStep_requirePhrase (owner : String) :
    InStep (requirePhrase owner) (requirePhrase owner) (Twins owner) := by
  refine inStep_bind (inStep_loadPhrase owner) fun p p' hp => ?_
  cases hp with
  | none => exact inStep_throw _
  | some htwins => exact inStep_pure htwins

/-- Opening succeeds, if with texts that have nothing to do with each other. -/
theorem inStep_openPhrase {owner : String} {p p' : SealedPhrase} (h : Twins owner p p')
    (c : Credential) (password : String) :
    InStep (openPhrase p c password) (openPhrase p' c password) fun _ _ => True := by
  obtain ⟨text, ht⟩ := h.openable.opens _ (length_cipherKey c password)
  obtain ⟨text', ht'⟩ := h.openable'.opens _ (length_cipherKey c password)
  have hopen : ∀ (q : SealedPhrase) (text : String),
      Sealing.decrypt q.cipher (c.cipherKey password) q.iv = .ok text →
      openPhrase q c password = pure text := by
    intro q text hq
    rw [openPhrase, hq]
    rfl
  rw [hopen p text ht, hopen p' text' ht']
  exact inStep_pure trivial

theorem inStep_resealAll (old : Credential) (current : String) (next : Credential) (password : String)
    (owners : List String) :
    InStep (resealAll old current next password owners) (resealAll old current next password owners)
      (List.Forall₂ fun p p' => Twins p.owner p p') := by
  induction owners with
  | nil => exact inStep_pure .nil
  | cons owner owners ih =>
    refine inStep_bind (inStep_requirePhrase owner) fun p p' hp => ?_
    refine inStep_bind (inStep_openPhrase hp old current) fun phrase phrase' _ => ?_
    refine inStep_bind (inStep_sealPhrase owner phrase phrase' next password) fun q q' hq => ?_
    exact inStep_bind ih fun qs qs' hqs => inStep_pure (.cons (hq.left.symm ▸ hq) hqs)

theorem inStep_stagePhrases {ps ps' : List SealedPhrase}
    (h : List.Forall₂ (fun p p' => Twins p.owner p p') ps ps') :
    InStep (stagePhrases ps) (stagePhrases ps') Eq := by
  induction h with
  | nil => exact inStep_pure rfl
  | cons hp _ ih =>
    rw [stagePhrases, stagePhrases, hp.right]
    exact inStep_bind_eq
      (inStep_put (likeAt_stagedPhrase.mpr (.some ⟨_, _, rfl, rfl, hp⟩))) fun _ => ih

theorem inStep_stage (next : Credential) {ps ps' : List SealedPhrase}
    (h : List.Forall₂ (fun p p' => Twins p.owner p p') ps ps') :
    InStep (stage next ps) (stage next ps') Eq :=
  inStep_bind_eq (inStep_put (likeAt_stagedCredential.mpr rfl)) fun _ =>
    inStep_bind_eq (inStep_stagePhrases h) fun _ => inStep_saveCredential next

theorem inStep_deletePhrases (owners : List String) :
    InStep (deletePhrases owners) (deletePhrases owners) Eq := by
  induction owners with
  | nil => exact inStep_pure rfl
  | cons owner owners ih => exact inStep_bind_eq (inStep_erase _) fun _ => ih

end Parts

section Operations

theorem inStep_hasPassword : InStep hasPassword hasPassword Eq := by
  refine inStep_bind_eq (inStep_sharedFor 2) fun _ => ?_
  refine inStep_bind (inStep_fetch _) fun v v' hv => inStep_pure ?_
  rw [hv.isSome_eq]

theorem inStep_state : InStep state state Eq := by
  refine inStep_bind_eq (inStep_sharedFor 2) fun _ => ?_
  refine inStep_bind_eq inStep_loadCredential fun c => ?_
  cases c with
  | none => exact inStep_pure rfl
  | some c => exact inStep_bind_eq inStep_sealedOwners fun _ => inStep_pure rfl

theorem inStep_setPassword (password : String) :
    InStep (setPassword password) (setPassword password) Eq := by
  refine inStep_bind_eq inStep_settle fun _ => ?_
  refine inStep_bind_eq inStep_sealedOwners fun owners => ?_
  refine inStep_ite Iff.rfl (inStep_throw _) ?_
  refine inStep_bind_eq inStep_loadCredential fun stored => ?_
  refine inStep_bind_eq (inStep_newCredential password) fun c => ?_
  exact inStep_bind_eq (inStep_saveCredential c) fun _ => inStep_report _

theorem inStep_verifyPassword (candidate : String) :
    InStep (verifyPassword candidate) (verifyPassword candidate) Eq := by
  refine inStep_bind_eq (inStep_sharedFor 2) fun _ => ?_
  refine inStep_bind_eq inStep_requireCredential fun c => ?_
  refine inStep_bind_eq (inStep_matching c candidate) fun verified => ?_
  exact inStep_ite Iff.rfl (inStep_bind_eq (inStep_report _) fun _ => inStep_pure rfl)
    (inStep_pure rfl)

theorem inStep_changePassword (current password : String) :
    InStep (changePassword current password) (changePassword current password) Eq := by
  refine inStep_bind_eq inStep_settle fun _ => ?_
  refine inStep_bind_eq inStep_requireCredential fun old => ?_
  refine inStep_bind_eq (inStep_demand old current) fun _ => ?_
  refine inStep_bind_eq (inStep_newCredential password) fun next => ?_
  refine inStep_bind_eq inStep_sealedOwners fun owners => ?_
  refine inStep_bind (inStep_resealAll old current next password owners) fun ps ps' hps => ?_
  refine inStep_bind (inStep_attempt (inStep_stage next hps)) fun r r' hr => ?_
  have hsettle : InStep (attempt settle) (attempt settle) (LikeOutcome Eq) :=
    inStep_attempt inStep_settle
  cases r <;> cases r' <;> first | exact hr.elim | skip
  · next fault fault' =>
    obtain rfl : fault = fault' := hr
    refine inStep_bind hsettle fun c c' hc => ?_
    cases c <;> cases c' <;> first | exact hc.elim | skip
    · next cleanup cleanup' =>
      obtain rfl : cleanup = cleanup' := hc
      exact inStep_bind_eq (inStep_report _) fun _ => inStep_throw fault
    · exact inStep_throw fault
  · rw [hps.length_eq]
    refine inStep_bind hsettle fun c c' hc => ?_
    cases c <;> cases c' <;> first | exact hc.elim | skip
    · next cleanup cleanup' =>
      obtain rfl : cleanup = cleanup' := hc
      exact inStep_bind_eq (inStep_report _) fun _ => inStep_report _
    · exact inStep_report _

/-- What is sealed makes no difference, as long as it is blank in both or in none. -/
theorem inStep_sealFor (owner password : String) {phrase phrase' : String}
    (h : isBlank phrase = isBlank phrase') :
    InStep (sealFor owner phrase password) (sealFor owner phrase' password) (Twins owner) := by
  refine inStep_ite Iff.rfl (inStep_throw _) ?_
  refine inStep_ite (by rw [h]) (inStep_throw _) ?_
  refine inStep_bind_eq inStep_settle fun _ => ?_
  refine inStep_bind_eq inStep_requireCredential fun c => ?_
  refine inStep_bind_eq (inStep_demand c password) fun _ => ?_
  refine inStep_bind (inStep_fetch _) fun v v' hv => ?_
  refine inStep_ite (by rw [hv.isSome_eq]) (inStep_throw _) ?_
  refine inStep_bind (inStep_sealPhrase owner phrase phrase' c password) fun p p' hp => ?_
  have hput : InStep (savePhrase p) (savePhrase p') Eq := by
    rw [savePhrase, savePhrase, hp.left, hp.right]
    exact inStep_put (likeAt_phrase.mpr (.some ⟨p, p', rfl, rfl, hp⟩))
  exact inStep_bind_eq hput fun _ => inStep_bind_eq (inStep_report _) fun _ => inStep_pure hp

theorem inStep_reveal (owner password : String) :
    InStep (reveal owner password) (reveal owner password) fun _ _ => True := by
  refine inStep_bind_eq (inStep_sharedFor 2) fun _ => ?_
  refine inStep_bind_eq inStep_requireCredential fun c => ?_
  exact inStep_bind (inStep_requirePhrase owner) fun p p' hp => inStep_openPhrase hp c password

theorem inStep_hasPhrase (owner : String) : InStep (hasPhrase owner) (hasPhrase owner) Eq := by
  refine inStep_bind_eq (inStep_sharedFor 2) fun _ => ?_
  refine inStep_bind (inStep_fetch _) fun v v' hv => inStep_pure ?_
  rw [hv.isSome_eq]

theorem inStep_owners : InStep owners owners Eq :=
  inStep_bind_eq (inStep_sharedFor 2) fun _ => inStep_sealedOwners

theorem inStep_remove (owner : String) : InStep (remove owner) (remove owner) Eq := by
  refine inStep_bind_eq inStep_settle fun _ => ?_
  refine inStep_bind (inStep_fetch _) fun v v' hv => ?_
  refine inStep_ite ?_ (inStep_throw _) (inStep_bind_eq (inStep_erase _) fun _ => inStep_report _)
  rw [← Option.not_isSome, ← Option.not_isSome, hv.isSome_eq]

theorem inStep_wipe : InStep wipe wipe Eq := by
  refine inStep_bind_eq inStep_settle fun _ => ?_
  refine inStep_bind_eq inStep_sealedOwners fun owners => ?_
  refine inStep_bind_eq (inStep_deletePhrases owners) fun _ => ?_
  exact inStep_bind_eq (inStep_erase _) fun _ => inStep_report _

end Operations

end Action
open Vault.Action

/-- Answers that are the same, but for revealed texts and for ciphers. -/
def LikeAnswer : Answer → Answer → Prop
  | .text _, .text _ => True
  | .record p, .record p' => p.owner = p'.owner ∧ p.iv = p'.iv
  | a, a' => a = a'

/-- Requests that are the same, but for the phrases they seal. -/
inductive Request.Like : Request → Request → Prop
  | same (q : Request) : Like q q
  | sealFor (owner password : String) {phrase phrase' : String}
    (h : isBlank phrase = isBlank phrase') :
    Like (.perform (.sealFor owner phrase password)) (.perform (.sealFor owner phrase' password))
  | sealNew (password : String) {phrase phrase' : String} (h : isBlank phrase = isBlank phrase') :
    Like (.sealNew phrase password) (.sealNew phrase' password)

private theorem inStep_record {owner : String} {act act' : Action SealedPhrase}
    (h : InStep act act' (Twins owner)) :
    InStep (Answer.record <$> act) (Answer.record <$> act') LikeAnswer :=
  inStep_map h fun _ _ hp => ⟨hp.left.trans hp.right.symm, hp.iv⟩

private theorem inStep_sealNew (password : String) {phrase phrase' : String}
    (h : isBlank phrase = isBlank phrase') :
    InStep (Answer.record <$> sealNew phrase password) (Answer.record <$> sealNew phrase' password)
      LikeAnswer := by
  rw [sealNew, sealNew, map_bind, map_bind]
  exact inStep_bind_eq inStep_mint fun owner => inStep_record (inStep_sealFor owner password h)

theorem Operation.inStep_program (op : Operation) : InStep op.program op.program LikeAnswer := by
  cases op with
  | hasPassword => exact inStep_map inStep_hasPassword fun _ _ => congrArg Answer.flag
  | state => exact inStep_map inStep_state fun _ _ => congrArg Answer.state
  | setPassword password => exact inStep_map (inStep_setPassword password) fun _ _ _ => rfl
  | verifyPassword candidate =>
    exact inStep_map (inStep_verifyPassword candidate) fun _ _ => congrArg Answer.flag
  | changePassword current password =>
    exact inStep_map (inStep_changePassword current password) fun _ _ _ => rfl
  | sealFor owner phrase password => exact inStep_record (inStep_sealFor owner password rfl)
  | reveal owner password => exact inStep_map (inStep_reveal owner password) fun _ _ h => h
  | hasPhrase owner => exact inStep_map (inStep_hasPhrase owner) fun _ _ => congrArg Answer.flag
  | owners => exact inStep_map inStep_owners fun _ _ => congrArg Answer.list
  | remove owner => exact inStep_map (inStep_remove owner) fun _ _ _ => rfl
  | wipe => exact inStep_map inStep_wipe fun _ _ _ => rfl

/-- Requests that differ in a phrase keep step. -/
theorem Request.Like.inStep {q q' : Request} (h : q.Like q') :
    InStep q.program q'.program LikeAnswer := by
  cases h with
  | same q =>
    cases q with
    | perform op => exact op.inStep_program
    | sealNew phrase password => exact inStep_sealNew password rfl
  | sealFor owner password h => exact inStep_record (inStep_sealFor owner password h)
  | sealNew password h => exact inStep_sealNew password h

end PhraseVault.Vault
