import PhraseVault.Proofs.Vault.Operations

/-!
# What operations write can be read

Whatever a store replies, as long as its credentials and phrases can be read, an operation only writes
such records, and only calls on keys that are not empty. So that is how the records of a vault are at
any time, however its operations fared.
-/
namespace PhraseVault.Vault

/-- A value that can be read back from under its key. -/
structure Legible (key : String) (value : Bytes) : Prop where
  credential : key = Key.credential ∨ key = Key.stagedCredential →
    ∃ c, Credential.read value = .ok c
  phrase : ∀ owner, key = Key.phrase owner ∨ key = Key.stagedPhrase owner →
    ∃ cipherKey text, cipherKey.length = Sealing.keyLength ∧ Opens value owner cipherKey text

/-- Records that can all be read back. -/
def Orderly (r : Records) : Prop := ∀ key value, r[key]? = some value → Legible key value

namespace Legible
variable {key owner : String} {value cipherKey : Bytes} {text : String}

theorem of_credential (c : Credential) (hkey : key = Key.credential ∨ key = Key.stagedCredential) :
    Legible key c.write where
  credential _ := ⟨c, c.read_write⟩
  phrase owner ho := by rcases hkey with rfl | rfl <;> simp at ho

theorem of_opens (hkey : key = Key.phrase owner ∨ key = Key.stagedPhrase owner)
    (hl : cipherKey.length = Sealing.keyLength) (h : Opens value owner cipherKey text) :
    Legible key value where
  credential hc := by rcases hkey with rfl | rfl <;> simp at hc
  phrase other ho := by
    obtain rfl : owner = other := by rcases hkey with rfl | rfl <;> simpa using ho
    exact ⟨cipherKey, text, hl, h⟩

/-- A staged phrase may be put in place. -/
theorem place (h : Legible (Key.stagedPhrase owner) value) : Legible (Key.phrase owner) value := by
  obtain ⟨cipherKey, text, hl, ho⟩ := h.phrase owner (.inr rfl)
  exact .of_opens (.inl rfl) hl ho

end Legible

namespace Orderly
variable {r : Records}

theorem empty : Orderly ∅ := by
  intro key value h
  rw [Std.ExtTreeMap.getElem?_empty] at h
  cases h

theorem insert (h : Orderly r) {key : String} {value : Bytes} (hl : Legible key value) :
    Orderly (r.insert key value) := by
  intro other content ho
  rw [Records.getElem?_insert] at ho
  split at ho
  · next he =>
    cases ho
    exact he ▸ hl
  · exact h other content ho

theorem erase (h : Orderly r) (key : String) : Orderly (r.erase key) := by
  intro other content ho
  rw [Records.getElem?_erase] at ho
  split at ho
  · cases ho
  · exact h other content ho

theorem exists_read (h : Orderly r) {key : String}
    (hkey : key = Key.credential ∨ key = Key.stagedCredential) (hm : key ∈ r) :
    ∃ c bytes, r[key]? = some bytes ∧ Credential.read bytes = .ok c := by
  obtain ⟨bytes, hb⟩ := Option.ne_none_iff_exists'.mp (Records.getElem?_ne_none_iff.mpr hm)
  obtain ⟨c, hc⟩ := (h _ _ hb).credential hkey
  exact ⟨c, bytes, hb, hc⟩

/-- Any key of the right length opens every phrase. -/
theorem exists_opens (h : Orderly r) {owner : String} (hm : Key.phrase owner ∈ r) {cipherKey : Bytes}
    (hk : cipherKey.length = Sealing.keyLength) :
    ∃ bytes text, r[Key.phrase owner]? = some bytes ∧ Opens bytes owner cipherKey text := by
  obtain ⟨bytes, hb⟩ := Option.ne_none_iff_exists'.mp (Records.getElem?_ne_none_iff.mpr hm)
  obtain ⟨other, text, hl, ho⟩ := (h _ _ hb).phrase owner (.inl rfl)
  obtain ⟨text', ho'⟩ := ho.exists_opens (hk.trans hl.symm)
  exact ⟨bytes, text', hb, ho'⟩

end Orderly

namespace Program
variable {α β : Type} {post : α → Prop} {p : Program α}

/-- Whatever is replied, as long as it can be read, a program only writes what can be read, calls on
no empty key, and ends as `post` says. -/
def Guards : Program α → (α → Prop) → Prop
  | done a, post => post a
  | get key next, post =>
    key ≠ "" ∧ ∀ r, (∀ value, r = .ok (some value) → Legible key value) → (next r).Guards post
  | set key value next, post => key ≠ "" ∧ Legible key value ∧ ∀ r, (next r).Guards post
  | delete key next, post => key ≠ "" ∧ ∀ r, (next r).Guards post
  | keys next, post => ∀ r, (next r).Guards post
  | draw count next, post => ∀ bytes, bytes.length = count → (next bytes).Guards post
  | mint next, post => ∀ id, (next id).Guards post
  | log _ next, post => (next ()).Guards post

theorem Guards.bind {post' : β → Prop} {f : α → Program β} (h : p.Guards post)
    (hf : ∀ a, post a → (f a).Guards post') : (p.bind f).Guards post' := by
  induction p with
  | done a => exact hf a h
  | get key next ih => exact ⟨h.1, fun r hr => ih r (h.2 r hr)⟩
  | set key value next ih => exact ⟨h.1, h.2.1, fun r => ih r (h.2.2 r)⟩
  | delete key next ih => exact ⟨h.1, fun r => ih r (h.2 r)⟩
  | keys next ih => exact fun r => ih r (h r)
  | draw count next ih => exact fun bytes hb => ih bytes (h bytes hb)
  | mint next ih => exact fun id => ih id (h id)
  | log event next ih => exact ih () h

end Program

/-- What an action guards until its end, and what holds of its result if it has one. -/
def Action.Guards {α : Type} (act : Action α) (post : α → Prop) : Prop :=
  Program.Guards act.run fun r => ∀ a, r = .ok a → post a

namespace Action
variable {α β : Type} {mid : α → Prop} {post : β → Prop}

theorem guards_bind {act : Action α} {f : α → Action β} (h : Guards act mid)
    (hf : ∀ a, mid a → Guards (f a) post) : Guards (act >>= f) post := by
  refine Program.Guards.bind h fun r hr => ?_
  cases r with
  | ok a => exact hf a (hr a rfl)
  | error fault =>
    intro b hb
    cases hb

theorem guards_pure {b : β} (h : post b) : Guards (pure b) post := by
  intro a ha
  cases ha
  exact h

theorem guards_throw (fault : Fault) : Guards (throw fault : Action β) post := by
  intro a ha
  cases ha

theorem guards_map {act : Action α} (g : α → β) (h : Guards act mid) :
    Guards (g <$> act) fun _ => True := by
  rw [map_eq_pure_bind]
  exact guards_bind h fun _ _ => guards_pure True.intro

theorem guards_ite {c : Prop} [Decidable c] {act other : Action β} (h : c → Guards act post)
    (ho : ¬ c → Guards other post) : Guards (if c then act else other) post := by
  split
  · next hc => exact h hc
  · next hc => exact ho hc

section Calls

theorem guards_fetch {key : String} (hk : key ≠ "") :
    Guards (fetch key) fun v => ∀ value, v = some value → Legible key value := by
  refine ⟨hk, fun r hr a ha => ?_⟩
  cases r with
  | error fault => cases ha
  | ok v =>
    cases ha
    exact fun value hv => hr value (congrArg Except.ok hv)

theorem guards_put {key : String} (hk : key ≠ "") {value : Bytes} (hl : Legible key value) :
    Guards (put key value) fun _ => True :=
  ⟨hk, hl, fun _ _ _ => True.intro⟩

theorem guards_erase {key : String} (hk : key ≠ "") : Guards (erase key) fun _ => True :=
  ⟨hk, fun _ _ _ => True.intro⟩

theorem guards_listKeys : Guards listKeys fun _ => True := fun _ _ _ => True.intro

theorem guards_draw (count : Nat) : Guards (draw count) (·.length = count) := by
  rintro bytes hb a ⟨⟩
  exact hb

theorem guards_mint : Guards mint fun _ => True := fun _ _ _ => True.intro

theorem guards_report (event : Event) : Guards (report event) fun _ => True :=
  fun _ _ => True.intro

theorem guards_outcome {r : Except Fault β} (h : ∀ b, r = .ok b → post b) :
    Guards (outcome r) post := h

theorem guards_attempt {act : Action α} (h : Guards act mid) :
    Guards (attempt act) fun _ => True :=
  Program.Guards.bind h fun _ _ _ _ => True.intro

end Calls

section Parts

theorem guards_readCredential (bytes : Bytes) : Guards (readCredential bytes) fun _ => True :=
  guards_outcome fun _ _ => True.intro

theorem guards_loadCredential : Guards loadCredential fun _ => True := by
  refine guards_bind (guards_fetch (by decide)) fun v _ => ?_
  cases v with
  | none => exact guards_pure True.intro
  | some bytes => exact guards_bind (guards_readCredential bytes) fun _ _ => guards_pure True.intro

theorem guards_requireCredential : Guards requireCredential fun _ => True := by
  refine guards_bind guards_loadCredential fun c _ => ?_
  cases c with
  | none => exact guards_throw _
  | some c => exact guards_pure True.intro

theorem guards_saveCredential (c : Credential) : Guards (saveCredential c) fun _ => True :=
  guards_put (by decide) (.of_credential c (.inl rfl))

theorem guards_unstage (committed : Bool) (owners : List String) :
    Guards (unstage committed owners) fun _ => True := by
  induction owners with
  | nil => exact guards_pure True.intro
  | cons owner owners ih =>
    have hrest : Guards (do erase (Key.stagedPhrase owner); unstage committed owners)
        fun _ => True :=
      guards_bind (guards_erase (Key.stagedPhrase_ne_empty owner)) fun _ _ => ih
    rw [unstage]
    refine guards_ite (fun _ => ?_) fun _ => hrest
    refine guards_bind (guards_fetch (Key.stagedPhrase_ne_empty owner)) fun v hv => ?_
    cases v with
    | none => exact hrest
    | some bytes =>
      exact guards_bind (guards_put (Key.phrase_ne_empty owner) (hv bytes rfl).place) fun _ _ => hrest

theorem guards_settle : Guards settle fun _ => True := by
  refine guards_bind (guards_fetch (by decide)) fun v _ => ?_
  cases v with
  | none => exact guards_pure True.intro
  | some bytes =>
    refine guards_bind (guards_readCredential bytes) fun staged _ => ?_
    refine guards_bind guards_loadCredential fun stored _ => ?_
    refine guards_bind guards_listKeys fun keys _ => ?_
    refine guards_bind (guards_unstage _ _) fun _ _ => ?_
    exact guards_bind (guards_erase (by decide)) fun _ _ => guards_report _

theorem guards_sharedFor (rounds : Nat) : Guards (sharedFor rounds) fun _ => True := by
  induction rounds with
  | zero => exact guards_throw _
  | succ rounds ih =>
    refine guards_bind (guards_fetch (by decide)) fun v _ => ?_
    cases v with
    | none => exact guards_pure True.intro
    | some bytes => exact guards_bind guards_settle fun _ _ => ih

theorem guards_drawSalt : Guards drawSalt fun _ => True :=
  guards_bind (guards_draw _) fun _ _ => guards_pure True.intro

theorem guards_newCredential (password : String) :
    Guards (newCredential password) fun _ => True := by
  refine guards_ite (fun _ => guards_throw _) fun _ => ?_
  refine guards_bind guards_drawSalt fun salt _ => ?_
  exact guards_bind guards_drawSalt fun keySalt _ => guards_pure True.intro

theorem guards_matching (c : Credential) (password : String) :
    Guards (matching c password) fun _ => True :=
  guards_outcome fun _ _ => True.intro

theorem guards_demand (c : Credential) (password : String) :
    Guards (demand c password) fun _ => True :=
  guards_bind (guards_matching c password) fun _ _ =>
    guards_ite (fun _ => guards_pure True.intro) fun _ => guards_throw _

/-- What has been sealed for an owner opens, whatever bytes were drawn for it. -/
theorem guards_sealPhrase (owner phrase : String) (c : Credential) (password : String) :
    Guards (sealPhrase owner phrase c password) fun p =>
      p.owner = owner ∧ Opens p.write owner (c.cipherKey password) phrase := by
  have hiv : Guards drawIv fun iv => ∃ bytes, bytes.length = Iv.freshLength ∧ iv = Iv.pack bytes :=
    guards_bind (guards_draw _) fun bytes hb => guards_pure ⟨bytes, hb, rfl⟩
  refine guards_bind hiv ?_
  rintro _ ⟨bytes, hb, rfl⟩
  have hi : (Iv.pack bytes).Usable := Iv.usable_pack (by rw [hb]; decide)
  have hk := length_cipherKey c password
  have hsize : (Iv.pack bytes).sigBytes < Json.wordLimit := by
    simp only [Iv.pack, hb]
    decide
  have hc := Sealing.encrypt_of_usable hk hi phrase
  rw [hc]
  refine guards_bind (guards_outcome fun cipher h => Except.ok.inj h) ?_
  rintro _ rfl
  exact guards_pure ⟨rfl, _, SealedPhrase.read_write hsize, rfl, Sealing.decrypt_of_encrypt hk hi hc⟩

theorem guards_openPhrase (p : SealedPhrase) (c : Credential) (password : String) :
    Guards (openPhrase p c password) fun _ => True :=
  guards_outcome fun _ _ => True.intro

theorem guards_readPhrase (bytes : Bytes) : Guards (readPhrase bytes) fun _ => True :=
  guards_outcome fun _ _ => True.intro

theorem guards_loadPhrase (owner : String) : Guards (loadPhrase owner) fun _ => True := by
  refine guards_bind (guards_fetch (Key.phrase_ne_empty owner)) fun v _ => ?_
  cases v with
  | none => exact guards_pure True.intro
  | some bytes =>
    refine guards_bind (guards_readPhrase bytes) fun p _ => ?_
    exact guards_ite (fun _ => guards_throw _) fun _ => guards_pure True.intro

theorem guards_requirePhrase (owner : String) : Guards (requirePhrase owner) fun _ => True := by
  refine guards_bind (guards_loadPhrase owner) fun p _ => ?_
  cases p with
  | none => exact guards_throw _
  | some p => exact guards_pure True.intro

theorem guards_sealedOwners : Guards sealedOwners fun _ => True :=
  guards_bind guards_listKeys fun _ _ => guards_pure True.intro

/-- A record that may be staged for its owner and put in place. -/
def Sealed (p : SealedPhrase) : Prop :=
  ∃ cipherKey text, cipherKey.length = Sealing.keyLength ∧ Opens p.write p.owner cipherKey text

theorem guards_resealAll (old : Credential) (current : String) (next : Credential)
    (password : String) (owners : List String) :
    Guards (resealAll old current next password owners) fun ps => ∀ p ∈ ps, Sealed p := by
  induction owners with
  | nil => exact guards_pure (by simp)
  | cons owner owners ih =>
    refine guards_bind (guards_requirePhrase owner) fun p _ => ?_
    refine guards_bind (guards_openPhrase p old current) fun phrase _ => ?_
    refine guards_bind (guards_sealPhrase owner phrase next password) fun q hq => ?_
    refine guards_bind ih fun ps hps => guards_pure ?_
    have hsealed : Sealed q := ⟨_, phrase, length_cipherKey next password, hq.1 ▸ hq.2⟩
    exact List.forall_mem_cons.mpr ⟨hsealed, hps⟩

theorem guards_stagePhrases {ps : List SealedPhrase} (h : ∀ p ∈ ps, Sealed p) :
    Guards (stagePhrases ps) fun _ => True := by
  induction ps with
  | nil => exact guards_pure True.intro
  | cons p ps ih =>
    obtain ⟨⟨_, _, hk, ho⟩, hps⟩ := List.forall_mem_cons.mp h
    exact guards_bind (guards_put (Key.stagedPhrase_ne_empty p.owner) (.of_opens (.inr rfl) hk ho))
      fun _ _ => ih hps

theorem guards_stage (next : Credential) {ps : List SealedPhrase} (h : ∀ p ∈ ps, Sealed p) :
    Guards (stage next ps) fun _ => True := by
  refine guards_bind (guards_put (by decide) (.of_credential next (.inr rfl))) fun _ _ => ?_
  exact guards_bind (guards_stagePhrases h) fun _ _ => guards_saveCredential next

theorem guards_deletePhrases (owners : List String) :
    Guards (deletePhrases owners) fun _ => True := by
  induction owners with
  | nil => exact guards_pure True.intro
  | cons owner owners ih =>
    exact guards_bind (guards_erase (Key.phrase_ne_empty owner)) fun _ _ => ih

end Parts

section Operations

theorem guards_setPassword (password : String) : Guards (setPassword password) fun _ => True := by
  refine guards_bind guards_settle fun _ _ => ?_
  refine guards_bind guards_sealedOwners fun owners _ => ?_
  refine guards_ite (fun _ => guards_throw _) fun _ => ?_
  refine guards_bind guards_loadCredential fun stored _ => ?_
  refine guards_bind (guards_newCredential password) fun c _ => ?_
  exact guards_bind (guards_saveCredential c) fun _ _ => guards_report _

theorem guards_verifyPassword (candidate : String) :
    Guards (verifyPassword candidate) fun _ => True := by
  refine guards_bind (guards_sharedFor 2) fun _ _ => ?_
  refine guards_bind guards_requireCredential fun c _ => ?_
  refine guards_bind (guards_matching c candidate) fun verified _ => ?_
  refine guards_ite (fun _ => ?_) fun _ => guards_pure True.intro
  exact guards_bind (guards_report _) fun _ _ => guards_pure True.intro

theorem guards_changePassword (current password : String) :
    Guards (changePassword current password) fun _ => True := by
  refine guards_bind guards_settle fun _ _ => ?_
  refine guards_bind guards_requireCredential fun old _ => ?_
  refine guards_bind (guards_demand old current) fun _ _ => ?_
  refine guards_bind (guards_newCredential password) fun next _ => ?_
  refine guards_bind guards_sealedOwners fun owners _ => ?_
  refine guards_bind (guards_resealAll old current next password owners) fun ps hps => ?_
  refine guards_bind (guards_attempt (guards_stage next hps)) fun r _ => ?_
  cases r with
  | error fault =>
    refine guards_bind (guards_attempt guards_settle) fun r _ => ?_
    cases r with
    | error cleanup => exact guards_bind (guards_report _) fun _ _ => guards_throw fault
    | ok _ => exact guards_throw fault
  | ok _ =>
    refine guards_bind (guards_attempt guards_settle) fun r _ => ?_
    cases r with
    | error fault => exact guards_bind (guards_report _) fun _ _ => guards_report _
    | ok _ => exact guards_report _

theorem guards_sealFor (owner phrase password : String) :
    Guards (sealFor owner phrase password) fun _ => True := by
  refine guards_ite (fun _ => guards_throw _) fun _ => ?_
  refine guards_ite (fun _ => guards_throw _) fun _ => ?_
  refine guards_bind guards_settle fun _ _ => ?_
  refine guards_bind guards_requireCredential fun c _ => ?_
  refine guards_bind (guards_demand c password) fun _ _ => ?_
  refine guards_bind (guards_fetch (Key.phrase_ne_empty owner)) fun stored _ => ?_
  refine guards_ite (fun _ => guards_throw _) fun _ => ?_
  refine guards_bind (guards_sealPhrase owner phrase c password) ?_
  rintro p ⟨rfl, ho⟩
  refine guards_bind (guards_put (Key.phrase_ne_empty p.owner)
    (.of_opens (.inl rfl) (length_cipherKey c password) ho)) fun _ _ => ?_
  exact guards_bind (guards_report _) fun _ _ => guards_pure True.intro

theorem guards_sealNew (phrase password : String) :
    Guards (sealNew phrase password) fun _ => True :=
  guards_bind guards_mint fun owner _ => guards_sealFor owner phrase password

theorem guards_reveal (owner password : String) : Guards (reveal owner password) fun _ => True := by
  refine guards_bind (guards_sharedFor 2) fun _ _ => ?_
  refine guards_bind guards_requireCredential fun c _ => ?_
  exact guards_bind (guards_requirePhrase owner) fun p _ => guards_openPhrase p c password

theorem guards_remove (owner : String) : Guards (remove owner) fun _ => True := by
  refine guards_bind guards_settle fun _ _ => ?_
  refine guards_bind (guards_fetch (Key.phrase_ne_empty owner)) fun stored _ => ?_
  refine guards_ite (fun _ => guards_throw _) fun _ => ?_
  exact guards_bind (guards_erase (Key.phrase_ne_empty owner)) fun _ _ => guards_report _

theorem guards_wipe : Guards wipe fun _ => True := by
  refine guards_bind guards_settle fun _ _ => ?_
  refine guards_bind guards_sealedOwners fun owners _ => ?_
  refine guards_bind (guards_deletePhrases owners) fun _ _ => ?_
  exact guards_bind (guards_erase (by decide)) fun _ _ => guards_report _

theorem guards_state : Guards Vault.state fun _ => True := by
  refine guards_bind (guards_sharedFor 2) fun _ _ => ?_
  refine guards_bind guards_loadCredential fun c _ => ?_
  cases c with
  | none => exact guards_pure True.intro
  | some c => exact guards_bind guards_sealedOwners fun _ _ => guards_pure True.intro

theorem guards_hasPassword : Guards hasPassword fun _ => True := by
  refine guards_bind (guards_sharedFor 2) fun _ _ => ?_
  exact guards_bind (guards_fetch (by decide)) fun _ _ => guards_pure True.intro

theorem guards_hasPhrase (owner : String) : Guards (hasPhrase owner) fun _ => True := by
  refine guards_bind (guards_sharedFor 2) fun _ _ => ?_
  exact guards_bind (guards_fetch (Key.phrase_ne_empty owner)) fun _ _ => guards_pure True.intro

theorem guards_owners : Guards owners fun _ => True :=
  guards_bind (guards_sharedFor 2) fun _ _ => guards_sealedOwners

end Operations

end Action
open Vault.Action

/-- Every operation writes only what can be read back. -/
theorem Operation.guards_program (op : Operation) : Action.Guards op.program fun _ => True := by
  cases op with
  | hasPassword => exact guards_map _ guards_hasPassword
  | state => exact guards_map _ guards_state
  | setPassword password => exact guards_map _ (guards_setPassword password)
  | verifyPassword candidate => exact guards_map _ (guards_verifyPassword candidate)
  | changePassword current password => exact guards_map _ (guards_changePassword current password)
  | sealFor owner phrase password => exact guards_map _ (guards_sealFor owner phrase password)
  | reveal owner password => exact guards_map _ (guards_reveal owner password)
  | hasPhrase owner => exact guards_map _ (guards_hasPhrase owner)
  | owners => exact guards_map _ guards_owners
  | remove owner => exact guards_map _ (guards_remove owner)
  | wipe => exact guards_map _ guards_wipe

theorem Request.guards_program (q : Request) : Action.Guards q.program fun _ => True := by
  cases q with
  | perform op => exact op.guards_program
  | sealNew phrase password => exact guards_map _ (guards_sealNew phrase password)

end PhraseVault.Vault
