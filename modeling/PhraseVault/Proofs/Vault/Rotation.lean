import PhraseVault.Proofs.Vault.Reading
import PhraseVault.Proofs.Vault.Staging

/-!
# A password rotation takes effect as a whole or not at all

What a rotation promises while changes fail and processes stop: the records that settling leads to are
those before the rotation, or they hold the same phrases under the new password.
-/
namespace PhraseVault.Vault
variable {x y : Records} {old next : Credential}

/-- What a rotation has to read: the credential, and every phrase under the password. -/
structure Rotatable (y : Records) (old : Credential) (current : String) : Prop where
  stored : Stored y old
  accepted : old.accepts current = .ok true
  opens : ∀ owner ∈ Records.owners y, ∃ bytes text,
    y[Key.phrase owner]? = some bytes ∧ Opens bytes owner (old.cipherKey current) text

/-- Sealed phrases that hold what the records of some owners hold, under another key. -/
def Resealed (y : Records) (oldKey newKey : Bytes) : List String → List SealedPhrase → Prop :=
  List.Forall₂ fun owner p => p.owner = owner ∧ ∃ bytes text,
    y[Key.phrase owner]? = some bytes ∧ Opens bytes owner oldKey text ∧
      Opens p.write owner newKey text

/-- The same phrases under another credential and key, and nothing else changed. -/
structure Rotates (y y' : Records) (next : Credential) (oldKey newKey : Bytes) : Prop where
  credential : y'[Key.credential]? = some next.write
  other : ∀ key, key ≠ Key.credential → (∀ owner, key ≠ Key.phrase owner) → y'[key]? = y[key]?
  phrase : ∀ owner, (y[Key.phrase owner]? = none ∧ y'[Key.phrase owner]? = none) ∨
    ∃ bytes bytes' text, y[Key.phrase owner]? = some bytes ∧ y'[Key.phrase owner]? = some bytes' ∧
      Opens bytes owner oldKey text ∧ Opens bytes' owner newKey text

namespace Resealed
variable {oldKey newKey : Bytes} {owners : List String} {ps : List SealedPhrase}

theorem written (h : Resealed y oldKey newKey owners ps) (owner : String) :
    (owner ∉ owners ∧ Vault.written ps owner = none) ∨
      ∃ bytes bytes' text, y[Key.phrase owner]? = some bytes ∧
        Vault.written ps owner = some bytes' ∧
        Opens bytes owner oldKey text ∧ Opens bytes' owner newKey text := by
  induction h with
  | nil => exact .inl ⟨List.not_mem_nil, rfl⟩
  | @cons o p os ps hp _ ih =>
    rcases ih with ⟨hn, hw⟩ | ⟨bytes, bytes', text, hy, hw, h1, h2⟩
    · obtain ⟨hpo, bytes, text, hy, h1, h2⟩ := hp
      by_cases ho : o = owner
      · subst ho
        exact .inr ⟨bytes, p.write, text, hy, by simp [Vault.written, hw, hpo], h1, h2⟩
      · refine .inl ⟨?_, by simp [Vault.written, hw, hpo, ho]⟩
        rw [List.mem_cons, not_or]
        exact ⟨Ne.symm ho, hn⟩
    · exact .inr ⟨bytes, bytes', text, hy, by simp [Vault.written, hw], h1, h2⟩

theorem mem (h : Resealed y oldKey newKey owners ps) : ∀ p ∈ ps, Key.phrase p.owner ∈ y := by
  induction h with
  | nil => simp
  | cons hp _ ih =>
    obtain ⟨ho, bytes, text, hy, -, -⟩ := hp
    rintro q (_ | ⟨_, hq⟩)
    · rw [ho, ← Records.getElem?_ne_none_iff, hy]
      simp
    · exact ih q hq

theorem rotates (h : Resealed y oldKey newKey (Records.owners y) ps) :
    Rotates y (rotated y next ps) next oldKey newKey where
  credential := rotated_credential
  other _ hc hp := rotated_other hc hp
  phrase owner := by
    rw [rotated_phrase]
    rcases h.written owner with ⟨hn, hw⟩ | ⟨bytes, bytes', text, hy, hw, h1, h2⟩
    · rw [Records.mem_owners, ← Records.getElem?_eq_none_iff] at hn
      exact .inl ⟨hn, by rw [hw, hn, Option.none_or]⟩
    · exact .inr ⟨bytes, bytes', text, hy, by rw [hw, Option.some_or], h1, h2⟩

end Resealed

namespace Action
variable {β : Type} {fails : Prop} {ok : Records → Prop} {s : Session Records}
variable {post : Except Fault β → Session Records → Prop}

theorem assures_resealAll {current password : String} {owners : List String}
    (h : ∀ owner ∈ owners, ∃ bytes text, s.store[Key.phrase owner]? = some bytes ∧
      Opens bytes owner (old.cipherKey current) text)
    {f : List SealedPhrase → Action β}
    (hf : ∀ ps entropy,
      Resealed s.store (old.cipherKey current) (next.cipherKey password) owners ps →
      Assures fails ok (f ps) post { s with entropy := entropy }) :
    Assures fails ok (resealAll old current next password owners >>= f) post s := by
  induction owners generalizing s f with
  | nil => exact hf [] s.entropy .nil
  | cons owner owners ih =>
    obtain ⟨bytes, text, hb, ho⟩ := h owner List.mem_cons_self
    rw [resealAll]
    simp only [bind_assoc]
    rw [assures_openPhrase hb ho, assures_sealPhrase]
    refine ih (s := { s with entropy := s.entropy.advance Iv.freshLength })
      (fun o hm => h o (List.mem_cons_of_mem _ hm)) fun ps entropy hps => ?_
    refine hf _ entropy (.cons ⟨rfl, bytes, text, hb, ho, ?_⟩ hps)
    exact opens_freshPhrase _ _ _ (length_cipherKey next password)

/-- The outcome of settling is only reported. -/
private theorem assures_attempt_settle (hx : Settles s.store y) (hok : ∀ x, Settles x y → ok x)
    {f : Except Fault Unit → Action β}
    (hf : ∀ r t, t.ids = s.ids → Settles t.store y → (r = .ok () ∧ t.store = y ∨ fails) →
      Assures fails ok (f r) post t) :
    Assures fails ok (attempt settle >>= f) post s := by
  refine assures_attempt_bind ((assures_settle hx).mono hok ?_)
  rintro r t ⟨-, hi, hr⟩
  rcases hr with ⟨rfl, ht⟩ | ⟨hfails, -, ht⟩
  · exact hf _ t hi (ht ▸ hx.self) (.inl ⟨rfl, ht⟩)
  · exact hf r t hi ht (.inr hfails)

/-- How a change of password ends: with the phrases under the new password, or with a failed change
and records that stand for what they were. -/
def Rotating (fails : Prop) (y : Records) (next : Credential) (oldKey newKey : Bytes)
    (ids : List String) (r : Except Fault Unit) (t : Session Records) : Prop :=
  t.ids = ids ∧
    ((r = .ok () ∧ ∃ y', Rotates y y' next oldKey newKey ∧ Settles t.store y' ∧
        (t.store = y' ∨ fails)) ∨
      fails ∧ (∃ fault, r = .error (.io fault)) ∧ Settles t.store y)

theorem assures_changePassword {current password : String} (hx : Settles s.store y)
    (hr : Rotatable y old current) (hp : password ≠ "")
    (hne : fails → freshCredential s.entropy password ≠ old) :
    Assures fails
      (fun x => fails → Settles x y ∨ ∃ y', Settles x y' ∧
        Rotates y y' (freshCredential s.entropy password) (old.cipherKey current)
          ((freshCredential s.entropy password).cipherKey password))
      (changePassword current password)
      (Rotating fails y (freshCredential s.entropy password) (old.cipherKey current)
        ((freshCredential s.entropy password).cipherKey password) s.ids) s := by
  rw [changePassword]
  refine assures_settling_bind (assures_settle hx) (fun x h _ => .inl h)
    (fun hfails fault t hi ht => ⟨hi, .inr ⟨hfails, ⟨fault, rfl⟩, ht⟩⟩) fun log => ?_
  rw [assures_requireCredential hr.stored, assures_demand hr.accepted, assures_newCredential hp,
    assures_sealedOwners]
  refine assures_resealAll hr.opens fun ps entropy hps => ?_
  have hrotates : Rotates y (rotated y (freshCredential s.entropy password) ps)
      (freshCredential s.entropy password) (old.cipherKey current)
      ((freshCredential s.entropy password).cipherKey password) := hps.rotates
  refine assures_attempt_bind ((assures_stage (s := ⟨y, entropy, s.ids, log⟩) hx.self hr.stored hne
    hps.mem).mono (fun x h hfails => (h hfails).imp_right fun h => ⟨_, h, hrotates⟩) ?_)
  rintro r t ⟨hi, hst⟩
  rcases hst with ⟨rfl, ht⟩ | ⟨hfails, ⟨fault, rfl⟩, ht⟩
  · -- the change stands, whatever comes of settling
    refine assures_attempt_settle ht (fun x h _ => .inr ⟨_, h, hrotates⟩) fun r u hu hs hd => ?_
    have hdone : ∀ v : Session Records, v.ids = u.ids → v.store = u.store →
        Rotating fails y (freshCredential s.entropy password) (old.cipherKey current)
          ((freshCredential s.entropy password).cipherKey password) s.ids (.ok ()) v := by
      intro v hv hvs
      refine ⟨hv.trans (hu.trans hi), .inl ⟨rfl, _, hrotates, hvs ▸ hs, ?_⟩⟩
      exact hd.imp (fun h => hvs.trans h.2) id
    cases r with
    | error fault => exact hdone _ rfl rfl
    | ok _ => exact hdone _ rfl rfl
  · -- what was staged is discarded, and the caller told
    refine assures_attempt_settle ht (fun x h _ => .inl h) fun r u hu hs _ => ?_
    have hdone : ∀ v : Session Records, v.ids = u.ids → v.store = u.store →
        Rotating fails y (freshCredential s.entropy password) (old.cipherKey current)
          ((freshCredential s.entropy password).cipherKey password) s.ids (.error (.io fault)) v :=
      fun v hv hvs => ⟨hv.trans (hu.trans hi), .inr ⟨hfails, ⟨fault, rfl⟩, hvs ▸ hs⟩⟩
    cases r with
    | error cleanup => exact hdone _ rfl rfl
    | ok _ => exact hdone _ rfl rfl

/-- What a change of password does before it changes anything: the new credential, and every phrase
sealed under it. -/
def prepare (current password : String) : Action (Credential × List SealedPhrase) := do
  exclusive
  let old ← requireCredential
  demand old current
  let next ← newCredential password
  let resealed ← resealAll old current next password (← sealedOwners)
  return (next, resealed)

/-- What becomes of a rotation once it has been staged, or could not be. -/
def cleanUp (count : ℕ) : Except Fault Unit → Action Unit
  | .error fault => do
    match ← attempt settle with
    | .error cleanup => report (.settlingFailed cleanup)
    | .ok _ => pure ()
    throw fault
  | .ok _ => do
    match ← attempt settle with
    | .error fault => report (.movingDeferred fault)
    | .ok _ => pure ()
    report (.rotated count)

/-- The rest of a change of password. -/
def conclude (next : Credential) (resealed : List SealedPhrase) : Action Unit :=
  attempt (stage next resealed) >>= cleanUp resealed.length

theorem changePassword_eq (current password : String) :
    changePassword current password =
      prepare current password >>= fun r => conclude r.1 r.2 := by
  simp only [changePassword, prepare, bind_assoc, pure_bind]
  rfl

/-- All that a change of password looks at, when it may be made. -/
theorem assures_prepare_of_rotatable {current password : String}
    (hs : s.store[Key.stagedCredential]? = none) (hr : Rotatable s.store old current)
    (hp : password ≠ "") :
    Assures fails ok (prepare current password) (fun r t => t.store = s.store ∧
      ∃ ps, r = .ok (freshCredential s.entropy password, ps) ∧
        Resealed s.store (old.cipherKey current)
          ((freshCredential s.entropy password).cipherKey password) (Records.owners s.store) ps)
      s := by
  rw [prepare, exclusive, assures_settle_bind hs, assures_requireCredential hr.stored,
    assures_demand hr.accepted, assures_newCredential hp, assures_sealedOwners]
  refine assures_resealAll (s := { s with entropy := afterCredential s.entropy }) hr.opens
    fun ps entropy hps => ?_
  exact (assures_pure _).mpr ⟨rfl, ps, rfl, hps⟩

/-- What is put before the new credential replaces the old one. -/
def staging (next : Credential) (resealed : List SealedPhrase) : Action Unit := do
  put Key.stagedCredential next.write
  stagePhrases resealed

theorem stage_eq (next : Credential) (ps : List SealedPhrase) :
    stage next ps = staging next ps >>= fun _ => saveCredential next := by
  simp only [stage, staging, bind_assoc]

/-- While nothing fails, all phrases are staged. -/
theorem assures_stagePhrases_putAll (ps : List SealedPhrase) (s : Session Records) :
    Assures False (fun _ => True) (stagePhrases ps)
      (fun r t => r = .ok () ∧ t.store = putAll Key.stagedPhrase ps s.store) s := by
  induction ps generalizing s with
  | nil => exact ⟨rfl, rfl⟩
  | cons p ps ih =>
    rw [stagePhrases, assures_put_bind]
    exact ⟨False.elim, trivial,
      ih { s with store := s.store.insert (Key.stagedPhrase p.owner) p.write }⟩

theorem assures_staging (ps : List SealedPhrase) (s : Session Records) :
    Assures False (fun _ => True) (staging next ps)
      (fun r t => r = .ok () ∧ t.store = staged s.store next ps) s := by
  rw [staging, assures_put_bind]
  exact ⟨False.elim, trivial, assures_stagePhrases_putAll ps
    { s with store := s.store.insert Key.stagedCredential next.write }⟩

end Action
open Vault.Action

/-- The settling that opens an operation, one that only reads or one that writes. -/
inductive Access where
  | shared
  | exclusive

def Access.settling : Access → Action Unit
  | .shared => Vault.shared
  | .exclusive => Vault.exclusive

/-- Sessions that come later: accesses have been cut short at some call, and processes have started
over the same store. -/
inductive Later (s : Session Unreliable) : Session Unreliable → Prop where
  | refl : Later s s
  | access {t : Session Unreliable} (h : Later s t) (a : Access) (n : ℕ) :
      Later s (a.settling.run.calls n t).2
  | reopened {t : Session Unreliable} (h : Later s t) (entropy : Entropy) (ids : List String) :
      Later s (t.reopened entropy ids)

/-- The same phrases under a new credential and password, and no other record changed. -/
structure Renewed (before after : Records) (next : Credential) (current password : String) :
    Prop where
  credential : after[Key.credential]? = some next.write
  other : ∀ key, key ≠ Key.credential → (∀ owner, key ≠ Key.phrase owner) →
    after[key]? = before[key]?
  owners : ∀ s t : Session Records, s.store = before → t.store = after →
    (Vault.owners.run.run t).1 = (Vault.owners.run.run s).1
  reveal : ∀ owner (s t : Session Records), s.store = before → t.store = after →
    ((Vault.reveal owner password).run.run t).1 = ((Vault.reveal owner current).run.run s).1

theorem Access.assures_settling {fails : Prop} {s : Session Records} (a : Access)
    (h : Settles s.store y) :
    Assures fails (Settles · y) a.settling (Settling fails y s) s := by
  cases a with
  | shared => exact assures_shared h
  | exclusive => exact assures_settle h

/-- What every access keeps, wherever it is cut short, holds in all later sessions. -/
theorem Later.keeps (ok : Records → Prop)
    (hok : ∀ (a : Access) (u : Session Records), ok u.store →
      Assures True ok a.settling (fun _ _ => True) u)
    {s t : Session Unreliable} (h : Later s t) (hs : ok s.store.records) : ok t.store.records := by
  induction h with
  | refl => exact hs
  | @access t _ a n ih => exact (Program.assures_calls (hok a t.bare ih) (fun _ => trivial) ih n).2
  | reopened _ entropy ids ih => exact ih

/-- What records stand for does not change with later accesses. -/
theorem Later.settles {s t : Session Unreliable} (h : Later s t)
    (hs : Settles s.store.records y) : Settles t.store.records y := by
  have hok : ∀ (a : Access) (u : Session Records), Settles u.store y →
      Assures True (Settles · y) a.settling (fun _ _ => True) u :=
    fun a u hu => (a.assures_settling hu).mono (fun _ hz => hz) fun _ _ _ => trivial
  exact h.keeps (Settles · y) hok hs

/-- An access that succeeds leaves what the records stood for. -/
theorem Access.records_of_run {s t : Session Unreliable} {a : Access}
    (h : Settles s.store.records y) (hrun : a.settling.run.run s = (.ok (), t)) :
    t.store.records = y := by
  have hassures : Assures True (Settles · y) a.settling (Settling True y s.bare) s.bare :=
    a.assures_settling h
  have hpost := Program.post_of_run hassures (fun _ => trivial) h
  rw [hrun] at hpost
  rcases hpost.2.2 with ⟨-, ht⟩ | ⟨-, ⟨fault, hf⟩, -⟩
  · exact ht
  · cases hf

/-- Once changes no longer fail an access succeeds. -/
theorem Access.run_of_not_mayFail {s : Session Unreliable} (a : Access)
    (h : Settles s.store.records y) (hf : ¬ s.store.MayFail) :
    (a.settling.run.run s).1 = .ok () := by
  have hassures : Assures False (Settles · y) a.settling (Settling False y s.bare) s.bare :=
    a.assures_settling h
  rcases (Program.post_of_run hassures (fun hm => hf hm) h).2.2 with ⟨hr, -⟩ | ⟨hfails, -⟩
  · exact hr
  · cases hfails

theorem Rotates.stored {oldKey newKey : Bytes} {y' : Records}
    (h : Rotates y y' next oldKey newKey) : Stored y' next :=
  ⟨_, h.credential, next.read_write⟩

theorem Rotates.mem_phrase {oldKey newKey : Bytes} {y' : Records}
    (h : Rotates y y' next oldKey newKey) (owner : String) :
    Key.phrase owner ∈ y' ↔ Key.phrase owner ∈ y := by
  rw [← Records.getElem?_ne_none_iff, ← Records.getElem?_ne_none_iff]
  rcases h.phrase owner with ⟨hy, hy'⟩ | ⟨_, _, _, hy, hy', -, -⟩
  · rw [hy, hy']
  · simp [hy, hy']

theorem Rotates.renewed {current password : String} {y' : Records}
    (hy : y[Key.stagedCredential]? = none) (hold : Stored y old)
    (h : Rotates y y' next (old.cipherKey current) (next.cipherKey password)) :
    Renewed y y' next current password := by
  have hy' : y'[Key.stagedCredential]? = none := by
    rw [h.other _ Key.stagedCredential_ne_credential Key.stagedCredential_ne_phrase, hy]
  refine ⟨h.credential, h.other, ?_, ?_⟩
  · rintro s t rfl rfl
    rw [run_owners hy, run_owners hy', Records.owners_congr h.mem_phrase]
  · rintro owner s t rfl rfl
    rcases h.phrase owner with ⟨hn, hn'⟩ | ⟨bytes, bytes', text, hb, hb', ho, ho'⟩
    · rw [run_reveal_unsealed hy hold hn, run_reveal_unsealed hy' h.stored hn']
    · rw [run_reveal hy hold hb ho, run_reveal hy' h.stored hb' ho']

theorem Rotates.not_isPending {oldKey newKey : Bytes} {y' : Records}
    (hclean : ∀ key ∈ y, ¬ Key.IsPending key) (h : Rotates y y' next oldKey newKey) (key : String)
    (hk : key ∈ y') : ¬ Key.IsPending key := by
  by_cases hc : key = Key.credential
  · rw [hc]
    exact Key.not_isPending_credential
  by_cases hp : ∃ owner, key = Key.phrase owner
  · obtain ⟨owner, rfl⟩ := hp
    exact Key.not_isPending_phrase owner
  rw [← Records.getElem?_ne_none_iff, h.other key hc (not_exists.mp hp),
    Records.getElem?_ne_none_iff] at hk
  exact hclean key hk

theorem settles_of_clean (hclean : ∀ key ∈ y, ¬ Key.IsPending key) : Settles y y := by
  refine .refl ?_ fun owner => ?_
  · rw [Records.getElem?_eq_none_iff]
    exact fun h => hclean _ h Key.isPending_stagedCredential
  · rw [Records.getElem?_eq_none_iff]
    exact fun h => hclean _ h (Key.isPending_stagedPhrase owner)

/-- Wherever a change of password is cut short, the records stand for what they were or for the
rotated ones, and they stand for what the caller has been told. -/
theorem settles_of_cut {s t : Session Unreliable} {current password : String} {n : ℕ}
    {p : Program (Except Fault Unit)} (hy : Settles s.store.records y)
    (hread : Rotatable y old current) (hp : password ≠ "")
    (hfresh : freshCredential s.entropy password ≠ old)
    (hcut : (changePassword current password).run.calls n s = (p, t)) :
    (Settles t.store.records y ∧ p ≠ .done (.ok ())) ∨
      ∃ y', Settles t.store.records y' ∧
        Rotates y y' (freshCredential s.entropy password) (old.cipherKey current)
          ((freshCredential s.entropy password).cipherKey password) ∧
        ∀ fault, p ≠ .done (.error fault) := by
  have hchange : Assures True _ (changePassword current password) _ s.bare :=
    assures_changePassword hy hread hp fun _ => hfresh
  obtain ⟨hrest, hbetween⟩ := Program.assures_calls hchange (fun _ => trivial) (fun _ => .inl hy) n
  rw [hcut] at hrest hbetween
  by_cases hdone : ∃ r, p = .done r
  · obtain ⟨r, rfl⟩ := hdone
    rcases hrest.2 with ⟨rfl, y', hy', ht, -⟩ | ⟨-, ⟨fault, rfl⟩, ht⟩
    · exact .inr ⟨y', ht, hy', by simp⟩
    · exact .inl ⟨ht, by simp⟩
  · rcases hbetween trivial with ht | ⟨y', ht, hy'⟩
    · exact .inl ⟨ht, fun he => hdone ⟨_, he⟩⟩
    · exact .inr ⟨y', ht, hy', fun _ he => hdone ⟨_, he⟩⟩

/-- Whatever changes of a rotation and of the settling after it fail, and wherever processes stop,
the first access that succeeds finds the records as they were, or the same phrases under the new
password, and what the caller was told agrees with it. -/
theorem rotation_all_or_nothing {s t u v : Session Unreliable} {current password : String} {n : ℕ}
    {p : Program (Except Fault Unit)} {a : Access}
    (hclean : ∀ key ∈ s.store.records, ¬ Key.IsPending key)
    (hread : Rotatable s.store.records old current) (hp : password ≠ "")
    (hfresh : freshCredential s.entropy password ≠ old)
    (hcut : (changePassword current password).run.calls n s = (p, t)) (hlater : Later t u)
    (hsettled : a.settling.run.run u = (.ok (), v)) :
    (∀ key ∈ v.store.records, ¬ Key.IsPending key) ∧
      ((v.store.records = s.store.records ∧ p ≠ .done (.ok ())) ∨
        (Renewed s.store.records v.store.records (freshCredential s.entropy password) current
            password ∧ ∀ fault, p ≠ .done (.error fault))) := by
  have hy := settles_of_clean hclean
  rcases settles_of_cut hy hread hp hfresh hcut with ⟨ht, hr⟩ | ⟨y', ht, hy', hr⟩
  · have hv := a.records_of_run (hlater.settles ht) hsettled
    exact ⟨hv ▸ hclean, .inl ⟨hv, hr⟩⟩
  · have hv := a.records_of_run (hlater.settles ht) hsettled
    rw [hv]
    exact ⟨hy'.not_isPending hclean, .inr ⟨hy'.renewed hy.stagedCredential hread.stored, hr⟩⟩

/-- The records of a vault with one phrase, sealed under a credential for a password. -/
def single (e : Entropy) (c : Credential) (password owner text : String) : Records :=
  ((∅ : Records).insert Key.credential c.write).insert (Key.phrase owner)
    (freshPhrase e owner text (c.cipherKey password)).write

theorem mem_single {e : Entropy} {c : Credential} {password owner text key : String} :
    key ∈ single e c password owner text ↔ Key.phrase owner = key ∨ Key.credential = key := by
  simp only [single, Std.ExtTreeMap.mem_insert, Std.compare_eq_iff_eq, Std.ExtTreeMap.not_mem_empty,
    or_false]

theorem clean_single (e : Entropy) (c : Credential) (password owner text : String) :
    ∀ key ∈ single e c password owner text, ¬ Key.IsPending key := by
  intro key hk
  rcases mem_single.mp hk with rfl | rfl
  · exact Key.not_isPending_phrase owner
  · exact Key.not_isPending_credential

theorem rotatable_single (e : Entropy) (password salt keySalt owner text : String) :
    Rotatable (single e (Credential.create password salt keySalt) password owner text)
      (Credential.create password salt keySalt) password where
  stored := by
    refine ⟨_, ?_, (Credential.create password salt keySalt).read_write⟩
    rw [single, Records.getElem?_insert, if_neg (Key.phrase_ne_credential owner),
      Records.getElem?_insert, if_pos rfl]
  accepted := Credential.accepts_create_of_normalize_eq rfl salt keySalt
  opens := by
    intro o ho
    obtain rfl : owner = o := by simpa [Records.mem_owners, mem_single] using ho
    have hopens := opens_freshPhrase e owner text
      (length_cipherKey (Credential.create password salt keySalt) password)
    refine ⟨_, text, ?_, hopens⟩
    rw [single, Records.getElem?_insert, if_pos rfl]

/-- A fresh salt is not the empty one. -/
theorem freshCredential_ne (e : Entropy) (password other keySalt : String) :
    freshCredential e password ≠ Credential.create other "" keySalt := by
  intro h
  have hsalt : Hex.encode (e.peek Entropy.saltLength) = "" := congrArg Credential.salt h
  have hd := Hex.decode_encode (e.peek Entropy.saltLength)
  have hnil : Hex.decode "" = .ok [] := Hex.decode_encode []
  rw [hsalt, hnil] at hd
  have hl := congrArg List.length (Except.ok.inj hd)
  rw [Entropy.length_peek] at hl
  exact absurd hl (by decide)

/-- On a store that does not fail a change of password ends well, and so does the next access. -/
theorem exists_rotation {s : Session Unreliable} {current password : String} (a : Access)
    (hworks : ¬ s.store.MayFail) (hy : Settles s.store.records y) (hread : Rotatable y old current)
    (hp : password ≠ "") :
    ∃ n t v, (changePassword current password).run.calls n s = (.done (.ok ()), t) ∧
      a.settling.run.run t = (.ok (), v) := by
  have hassures : Assures False _ (changePassword current password) _ s.bare :=
    assures_changePassword hy hread hp False.elim
  obtain ⟨n, hn⟩ := Program.exists_calls_eq_run (changePassword current password).run s
  rcases (Program.post_of_run hassures hworks False.elim).2 with ⟨hr, y', -, ht, -⟩ | ⟨hfails, -⟩
  · have hworks' := mt (Program.mayFail_of_calls n (changePassword current password).run s) hworks
    rw [hn] at hworks'
    rw [hr] at hn
    exact ⟨n, _, _, hn, Prod.ext (a.run_of_not_mayFail ht hworks') rfl⟩
  · cases hfails

/-- An access after a rotation that was cut short keeps the credential that it finds. -/
theorem exists_settled_of_cut {s t : Session Unreliable} {current password : String} {n : ℕ}
    {p : Program (Except Fault Unit)} (a : Access) (hworks : ¬ s.store.MayFail)
    (hy : Settles s.store.records y) (hread : Rotatable y old current) (hp : password ≠ "")
    (hfresh : freshCredential s.entropy password ≠ old)
    (hcut : (changePassword current password).run.calls n s = (p, t)) :
    ∃ v, a.settling.run.run t = (.ok (), v) ∧
      v.store.records[Key.credential]? = t.store.records[Key.credential]? := by
  have hworks' := mt (Program.mayFail_of_calls n (changePassword current password).run s) hworks
  rw [hcut] at hworks'
  obtain ⟨y', ht⟩ : ∃ y', Settles t.store.records y' := by
    rcases settles_of_cut hy hread hp hfresh hcut with ⟨ht, -⟩ | ⟨y', ht, -⟩
    · exact ⟨y, ht⟩
    · exact ⟨y', ht⟩
  have hv : a.settling.run.run t = (.ok (), (a.settling.run.run t).2) :=
    Prod.ext (a.run_of_not_mayFail ht hworks') rfl
  refine ⟨_, hv, ?_⟩
  rw [a.records_of_run ht hv, ht.plain _ Key.isPlain_credential]

/-- On a store that does not fail, a change of password can be stopped when all is staged, and one
call later, when the credential has been replaced. -/
theorem exists_calls_staged {s : Session Unreliable} {current password : String}
    (hworks : ¬ s.store.MayFail) (hs : s.store.records[Key.stagedCredential]? = none)
    (hread : Rotatable s.store.records old current) (hp : password ≠ "") :
    ∃ n ps p q t u, (changePassword current password).run.calls n s = (p, t) ∧
      (changePassword current password).run.calls (1 + n) s = (q, u) ∧
      (∀ r, p ≠ .done r) ∧ (∀ r, q ≠ .done r) ∧
      t.store.records = staged s.store.records (freshCredential s.entropy password) ps ∧
      u.store.records = t.store.records.insert Key.credential
        (freshCredential s.entropy password).write := by
  obtain ⟨_, prepared, hrun, ⟨hsame, ps, rfl, -⟩, hprepared⟩ :=
    (assures_prepare_of_rotatable (s := s.bare) hs hread hp).exists_run hworks
  obtain ⟨m, hm⟩ := exists_calls_bind_ok (f := fun r => conclude r.1 r.2) hrun
  rw [← changePassword_eq] at hm
  obtain ⟨_, t, hrun, ⟨rfl, ht⟩, hstaged⟩ := (assures_staging ps prepared.bare).exists_run hprepared
  obtain ⟨n, hn⟩ := exists_calls_bind_ok
    (f := fun _ => saveCredential (freshCredential s.entropy password)) hrun
  rw [← stage_eq] at hn
  have hcut : (changePassword current password).run.calls (n + m) s =
      ((saveCredential (freshCredential s.entropy password)).run.bind
        fun r => (cleanUp ps.length r).run, t) := by
    rw [Program.calls_add, hm]
    exact calls_attempt_bind (cleanUp ps.length) hn nofun
  obtain ⟨u, hu, hreplaced⟩ := step_put_bind hstaged Key.credential
    (freshCredential s.entropy password).write fun r => (cleanUp ps.length r).run
  refine ⟨n + m, ps, _, (cleanUp ps.length (.ok ())).run, t, u, hcut, ?_, ?_, ?_, ?_, hreplaced⟩
  · rw [Program.calls_add, hcut]
    exact hu
  · intro r h
    cases h
  · intro r h
    cases h
  · have ht : t.store.records = staged prepared.bare.store _ ps := ht
    rw [ht, hsame]
    rfl

/-- A change of password that is not stopped stands. If it is stopped when all is staged, the next
access discards it, and one call later the next access finishes it. -/
theorem rotation_all_or_nothing_single :
    ∃ s : Session Unreliable,
      s.store.records = single ⟨fun _ => 0, 0⟩ (.create "old" "" "") "old" "a" "word" ∧
      (∃ n t v, (changePassword "old" "new").run.calls n s = (.done (.ok ()), t) ∧
        Access.shared.settling.run.run t = (.ok (), v) ∧
        Renewed s.store.records v.store.records (freshCredential s.entropy "new") "old" "new") ∧
      ∃ n p q t u v w,
        (changePassword "old" "new").run.calls n s = (p, t) ∧ (∀ r, p ≠ .done r) ∧
        t.store.records[Key.stagedCredential]? = some (freshCredential s.entropy "new").write ∧
        Access.shared.settling.run.run t = (.ok (), v) ∧ v.store.records = s.store.records ∧
        (changePassword "old" "new").run.calls (1 + n) s = (q, u) ∧ (∀ r, q ≠ .done r) ∧
        Access.exclusive.settling.run.run u = (.ok (), w) ∧
        Renewed s.store.records w.store.records (freshCredential s.entropy "new") "old" "new" := by
  have hclean := clean_single ⟨fun _ => 0, 0⟩ (.create "old" "" "") "old" "a" "word"
  have hread := rotatable_single ⟨fun _ => 0, 0⟩ "old" "" "" "a" "word"
  generalize single ⟨fun _ => 0, 0⟩ (.create "old" "" "") "old" "a" "word" = records at hclean hread
  let s : Session Unreliable := ⟨⟨records, fun _ => none, 0⟩, ⟨fun _ => 0, 0⟩, [], []⟩
  have hworks : ¬ s.store.MayFail := Unreliable.not_mayFail_of_none fun _ _ => rfl
  have hy := settles_of_clean hclean
  have hp : "new" ≠ "" := by decide
  have hfresh := freshCredential_ne s.entropy "new" "old" ""
  refine ⟨s, rfl, ?_, ?_⟩
  · obtain ⟨n, t, v, hcut, hv⟩ := exists_rotation (s := s) .shared hworks hy hread hp
    refine ⟨n, t, v, hcut, hv, ?_⟩
    rcases (rotation_all_or_nothing hclean hread hp hfresh hcut .refl hv).2 with ⟨-, hne⟩ | ⟨hnew, -⟩
    · exact absurd rfl hne
    · exact hnew
  · obtain ⟨n, ps, p, q, t, u, hcut, hnext, hmore, hmore', ht, hu⟩ :=
      exists_calls_staged hworks hy.stagedCredential hread hp
    obtain ⟨v, hv, hkept⟩ := exists_settled_of_cut .shared hworks hy hread hp hfresh hcut
    obtain ⟨w, hw, hkept'⟩ := exists_settled_of_cut .exclusive hworks hy hread hp hfresh hnext
    rw [ht, staged_plain Key.isPlain_credential] at hkept
    rw [hu, Records.getElem?_insert, if_pos rfl] at hkept'
    refine ⟨n, p, q, t, u, v, w, hcut, hmore, ?_, hv, ?_, hnext, hmore', hw, ?_⟩
    · rw [ht, staged_stagedCredential]
    · rcases (rotation_all_or_nothing hclean hread hp hfresh hcut .refl hv).2 with ⟨hold, -⟩ | ⟨hnew, -⟩
      · exact hold
      · rw [hnew.credential] at hkept
        exact absurd (Stored.unique ⟨_, hkept.symm, Credential.read_write _⟩ hread.stored) hfresh
    · rcases (rotation_all_or_nothing hclean hread hp hfresh hnext .refl hw).2 with ⟨hold, -⟩ | ⟨hnew, -⟩
      · rw [hold] at hkept'
        exact absurd (Stored.unique ⟨_, hkept', Credential.read_write _⟩ hread.stored) hfresh
      · exact hnew

end PhraseVault.Vault
