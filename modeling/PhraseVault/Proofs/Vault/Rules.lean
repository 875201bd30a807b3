import PhraseVault.Vault.Basic
import PhraseVault.Proofs.Key
import PhraseVault.Proofs.Record
import PhraseVault.Proofs.Sealing
import PhraseVault.Proofs.Vault.Interruption

/-!
# What actions assure, call by call

One rule for each call in front of the rest of an action. They hold by unfolding; an operation is
gone through by rewriting with them.
-/
namespace PhraseVault.Vault
variable {α β : Type}

/-- What an action assures of its outcome and of every store on the way. -/
def Action.Assures (fails : Prop) (ok : Records → Prop) (act : Action α)
    (post : Except Fault α → Session Records → Prop) (s : Session Records) : Prop :=
  Program.Assures fails ok act.run post s

namespace Action
variable {fails : Prop} {ok : Records → Prop} {s : Session Records}
variable {post : Except Fault β → Session Records → Prop}

section Runs
variable {σ : Type} [RecordStore σ]

theorem run_bind_ok {act : Action α} {f : α → Action β} {a : α} {s t : Session σ}
    (h : act.run.run s = (.ok a, t)) : (act >>= f).run.run s = (f a).run.run t := by
  have hbind : (act >>= f).run.run s = _ := Program.run_bind act.run _ s
  rw [hbind, h]
  rfl

theorem run_bind_error {act : Action α} {f : α → Action β} {fault : Fault} {s t : Session σ}
    (h : act.run.run s = (.error fault, t)) : (act >>= f).run.run s = (.error fault, t) := by
  have hbind : (act >>= f).run.run s = _ := Program.run_bind act.run _ s
  rw [hbind, h]
  rfl

/-- An action that succeeds has done so part by part. -/
theorem exists_run_bind_ok {act : Action α} {f : α → Action β} {b : β} {s t : Session σ}
    (h : (act >>= f).run.run s = (.ok b, t)) :
    ∃ a u, act.run.run s = (.ok a, u) ∧ (f a).run.run u = (.ok b, t) := by
  rcases hr : act.run.run s with ⟨fault | a, u⟩
  · rw [run_bind_error hr] at h
    cases h
  · rw [run_bind_ok hr] at h
    exact ⟨a, u, rfl, h⟩

theorem run_map (g : α → β) (act : Action α) (s : Session σ) :
    (g <$> act).run.run s = ((act.run.run s).1.map g, (act.run.run s).2) := by
  rw [map_eq_pure_bind]
  rcases hr : act.run.run s with ⟨fault | a, t⟩
  · rw [run_bind_error hr]
    rfl
  · rw [run_bind_ok hr]
    rfl

theorem run_attempt (act : Action α) (s : Session σ) :
    (attempt act).run.run s = (.ok (act.run.run s).1, (act.run.run s).2) :=
  Program.run_bind act.run _ s

theorem run_fetch (key : String) (s : Session Unreliable) :
    (fetch key).run.run s = (.ok s.store.records[key]?, s) := rfl

theorem run_listKeys (s : Session Unreliable) :
    listKeys.run.run s = (.ok s.store.records.keys, s) := by
  simp [listKeys, onStore, Program.bind, Program.run, ExceptT.run_mk, RecordStore.keys,
    Session.record, Session.listed]
  rfl

theorem run_put (key : String) (value : Bytes) (s : Session Unreliable) :
    (put key value).run.run s = ((s.store.change fun r => r.insert key value).1.mapError .io,
      { s with store := (s.store.change fun r => r.insert key value).2 }) := rfl

theorem run_erase (key : String) (s : Session Unreliable) :
    (erase key).run.run s = ((s.store.change fun r => r.erase key).1.mapError .io,
      { s with store := (s.store.change fun r => r.erase key).2 }) := rfl

/-- Once an action has succeeded, what follows is all that is left. -/
theorem exists_calls_bind_ok {act : Action α} {f : α → Action β} {a : α}
    {s t : Session σ} (h : act.run.run s = (.ok a, t)) :
    ∃ n, (act >>= f).run.calls n s = ((f a).run, t) := by
  obtain ⟨n, hn⟩ := Program.exists_calls_bind act.run _ s
  rw [h] at hn
  exact ⟨n, hn⟩

/-- An attempt is stopped where the action that is attempted is, as long as that has more to do. -/
theorem calls_attempt_bind {act : Action α} (f : Except Fault α → Action β) {n : Nat}
    {p : Program (Except Fault α)} {s t : Session σ} (h : act.run.calls n s = (p, t)) (hp : ∀ r, p ≠ .done r) :
    (attempt act >>= f).run.calls n s = (p.bind fun r => (f r).run, t) := by
  have hrun : (attempt act >>= f).run = act.run.bind fun r => (f r).run := bind_assoc act.run _ _
  rw [hrun]
  exact Program.calls_bind _ h hp

end Runs

/-- What follows an action, once it has succeeded. -/
def continued (fails : Prop) (ok : Records → Prop) (f : α → Action β)
    (post : Except Fault β → Session Records → Prop) : Except Fault α → Session Records → Prop
  | .ok a, s => Assures fails ok (f a) post s
  | .error fault, s => post (.error fault) s

theorem assures_bind {act : Action α} {f : α → Action β}
    (h : Assures fails ok act (continued fails ok f post) s) :
    Assures fails ok (act >>= f) post s := by
  refine Program.assures_bind (h.mono (fun _ hr => hr) ?_)
  intro r t hr
  cases r with
  | ok a => exact hr
  | error fault => exact hr

theorem Assures.mono {ok' : Records → Prop} {act : Action β}
    {post' : Except Fault β → Session Records → Prop} (h : Assures fails ok act post s)
    (hok : ∀ r, ok r → ok' r) (hpost : ∀ r s, post r s → post' r s) :
    Assures fails ok' act post' s :=
  Program.Assures.mono h hok hpost

/-- The call that a write is, where no failure is to come. -/
theorem step_put_bind {γ : Type} {s : Session Unreliable} (hworks : ¬ s.store.MayFail) (key : String)
    (value : Bytes) (f : Except Fault Unit → Program γ) :
    ∃ t, Program.step ((put key value).run.bind f, s) = (f (.ok ()), t) ∧
      t.store.records = s.store.records.insert key value := by
  refine ⟨{ s with store := (s.store.change fun r => r.insert key value).2 }, ?_, ?_⟩
  · have hchange : (s.store.change fun r => r.insert key value).1 = .ok () := by
      rw [Unreliable.change_of_not_mayFail hworks]
    exact congrArg (fun r => (f (r.mapError Fault.io), _)) hchange
  · rw [Unreliable.change_of_not_mayFail hworks]

/-- What is assured if nothing fails holds where no failure is to come. -/
theorem Assures.exists_run {act : Action β} {s : Session Unreliable}
    (h : Assures False (fun _ => True) act post s.bare) (hworks : ¬ s.store.MayFail) :
    ∃ r t, act.run.run s = (r, t) ∧ post r t.bare ∧ ¬ t.store.MayFail :=
  ⟨_, _, rfl, Program.post_of_run h (fun hm => hworks hm) trivial,
    mt (Program.mayFail_of_run act.run s) hworks⟩

theorem assures_pure (b : β) : Assures fails ok (pure b) post s ↔ post (.ok b) s := Iff.rfl

theorem assures_throw_bind (fault : Fault) (f : α → Action β) :
    Assures fails ok (throw fault >>= f) post s ↔ post (.error fault) s := Iff.rfl

theorem assures_fetch_bind (key : String) (f : Option Bytes → Action β) :
    Assures fails ok (fetch key >>= f) post s ↔ Assures fails ok (f s.store[key]?) post s := Iff.rfl

theorem assures_listKeys_bind (f : List String → Action β) :
    Assures fails ok (listKeys >>= f) post s ↔ Assures fails ok (f s.store.keys) post s := Iff.rfl

theorem assures_put_bind (key : String) (value : Bytes) (f : Unit → Action β) :
    Assures fails ok (put key value >>= f) post s ↔
      (fails → ∀ fault, post (.error (.io fault)) s) ∧ ok (s.store.insert key value) ∧
        Assures fails ok (f ()) post { s with store := s.store.insert key value } := Iff.rfl

theorem assures_put {post : Except Fault Unit → Session Records → Prop} (key : String)
    (value : Bytes) : Assures fails ok (put key value) post s ↔
      (fails → ∀ fault, post (.error (.io fault)) s) ∧ ok (s.store.insert key value) ∧
        post (.ok ()) { s with store := s.store.insert key value } := Iff.rfl

theorem assures_erase_bind (key : String) (f : Unit → Action β) :
    Assures fails ok (erase key >>= f) post s ↔
      (fails → ∀ fault, post (.error (.io fault)) s) ∧ ok (s.store.erase key) ∧
        Assures fails ok (f ()) post { s with store := s.store.erase key } := Iff.rfl

theorem assures_draw_bind (count : Nat) (f : Bytes → Action β) :
    Assures fails ok (draw count >>= f) post s ↔
      Assures fails ok (f (s.entropy.peek count)) post
        { s with entropy := s.entropy.advance count } := Iff.rfl

theorem assures_mint_bind (f : String → Action β) :
    Assures fails ok (mint >>= f) post s ↔
      Assures fails ok (f (s.ids.headD "")) post { s with ids := s.ids.tail } := Iff.rfl

theorem assures_report_bind (event : Event) (f : Unit → Action β) :
    Assures fails ok (report event >>= f) post s ↔ Assures fails ok (f ()) post (s.record [event]) :=
  Iff.rfl

theorem assures_report {post : Except Fault Unit → Session Records → Prop} (event : Event) :
    Assures fails ok (report event) post s ↔ post (.ok ()) (s.record [event]) := Iff.rfl

theorem assures_outcome_ok_bind (a : α) (f : α → Action β) :
    Assures fails ok (outcome (.ok a) >>= f) post s ↔ Assures fails ok (f a) post s := Iff.rfl

theorem assures_map {act : Action α} (g : α → β)
    (h : Assures fails ok act (fun r t => post (r.map g) t) s) :
    Assures fails ok (g <$> act) post s := by
  rw [map_eq_pure_bind]
  refine assures_bind (h.mono (fun _ hr => hr) ?_)
  intro r t hr
  cases r with
  | ok a => exact hr
  | error fault => exact hr

/-- Whatever comes of an attempt, the action goes on. -/
theorem assures_attempt_bind {act : Action α} {f : Except Fault α → Action β}
    (h : Assures fails ok act (fun r s => Assures fails ok (f r) post s) s) :
    Assures fails ok (attempt act >>= f) post s := by
  refine assures_bind ?_
  exact Program.assures_bind h

end Action

/-- The records hold a credential that can be read. -/
def Stored (r : Records) (c : Credential) : Prop :=
  ∃ bytes, r[Key.credential]? = some bytes ∧ Credential.read bytes = .ok c

/-- A record is an owner's, and opens to a text under a key. -/
def Opens (bytes : Bytes) (owner : String) (key : Bytes) (text : String) : Prop :=
  ∃ p, SealedPhrase.read bytes = .ok p ∧ p.owner = owner ∧ Sealing.decrypt p.cipher key p.iv = .ok text

/-- The credential that the next random bytes make of a password. -/
def freshCredential (e : Entropy) (password : String) : Credential :=
  Credential.create password (Entropy.saltOf (e.peek Entropy.saltLength))
    (Entropy.saltOf ((e.advance Entropy.saltLength).peek Entropy.saltLength))

def afterCredential (e : Entropy) : Entropy :=
  (e.advance Entropy.saltLength).advance Entropy.saltLength

/-- The sealed phrase that the next random bytes make of a text. -/
def freshPhrase (e : Entropy) (owner text : String) (key : Bytes) : SealedPhrase :=
  let iv := Iv.pack (e.peek Iv.freshLength)
  ⟨owner, Base64.encode (Counter.apply key (Sealing.firstBlock iv) (Sealing.pad (Utf8.encode text))),
    iv⟩

theorem usable_fresh (e : Entropy) : (Iv.pack (e.peek Iv.freshLength)).Usable :=
  Iv.usable_pack (by rw [Entropy.length_peek]; decide)

/-- A phrase opens under the key it has been sealed under. -/
theorem opens_freshPhrase (e : Entropy) (owner text : String) {key : Bytes}
    (hk : key.length = Sealing.keyLength) :
    Opens (freshPhrase e owner text key).write owner key text := by
  have hsize : (freshPhrase e owner text key).iv.sigBytes < Json.wordLimit := by
    simp only [freshPhrase, Iv.pack, Entropy.length_peek]
    decide
  exact ⟨_, SealedPhrase.read_write hsize, rfl,
    Sealing.decrypt_of_encrypt hk (usable_fresh e) (Sealing.encrypt_of_usable hk (usable_fresh e) text)⟩

theorem Opens.unique {bytes key : Bytes} {owner text text' : String}
    (h : Opens bytes owner key text) (h' : Opens bytes owner key text') : text = text' := by
  obtain ⟨p, hr, -, hd⟩ := h
  obtain ⟨p', hr', -, hd'⟩ := h'
  cases hr.symm.trans hr'
  exact Except.ok.inj (hd.symm.trans hd')

/-- Any key of the same length opens a record, if only to some other text. -/
theorem Opens.exists_opens {bytes key other : Bytes} {owner text : String}
    (h : Opens bytes owner key text) (hl : other.length = key.length) :
    ∃ text', Opens bytes owner other text' := by
  obtain ⟨p, hr, ho, hd⟩ := h
  obtain ⟨text', hd'⟩ := Sealing.exists_decrypt hl hd
  exact ⟨text', p, hr, ho, hd'⟩

theorem Stored.unique {r : Records} {c d : Credential} (hc : Stored r c) (hd : Stored r d) :
    c = d := by
  obtain ⟨bytes, hb, hr⟩ := hc
  obtain ⟨bytes', hb', hr'⟩ := hd
  cases hb.symm.trans hb'
  exact Except.ok.inj (hr.symm.trans hr')

theorem length_cipherKey (c : Credential) (password : String) :
    (c.cipherKey password).length = Sealing.keyLength :=
  Password.length_cipherKey password _

namespace Action
variable {fails : Prop} {ok : Records → Prop} {s : Session Records}
variable {post : Except Fault β → Session Records → Prop}

theorem assures_readCredential {bytes : Bytes} {c : Credential} (h : Credential.read bytes = .ok c)
    (f : Credential → Action β) :
    Assures fails ok (readCredential bytes >>= f) post s ↔ Assures fails ok (f c) post s := by
  rw [readCredential, h]
  exact assures_outcome_ok_bind c f

theorem assures_loadCredential {c : Credential} (h : Stored s.store c)
    (f : Option Credential → Action β) :
    Assures fails ok (loadCredential >>= f) post s ↔ Assures fails ok (f (some c)) post s := by
  obtain ⟨bytes, hb, hr⟩ := h
  rw [loadCredential, bind_assoc, assures_fetch_bind, hb]
  simp only [bind_assoc]
  rw [assures_readCredential hr]
  exact Iff.rfl

theorem assures_loadCredential_none (h : s.store[Key.credential]? = none)
    (f : Option Credential → Action β) :
    Assures fails ok (loadCredential >>= f) post s ↔ Assures fails ok (f none) post s := by
  rw [loadCredential, bind_assoc, assures_fetch_bind, h]
  exact Iff.rfl

theorem assures_requireCredential {c : Credential} (h : Stored s.store c)
    (f : Credential → Action β) :
    Assures fails ok (requireCredential >>= f) post s ↔ Assures fails ok (f c) post s := by
  rw [requireCredential, bind_assoc, assures_loadCredential h]
  exact Iff.rfl

theorem assures_requireCredential_none (h : s.store[Key.credential]? = none)
    (f : Credential → Action β) :
    Assures fails ok (requireCredential >>= f) post s ↔ post (.error .credentialNotSet) s := by
  rw [requireCredential, bind_assoc, assures_loadCredential_none h]
  exact Iff.rfl

theorem assures_matching {c : Credential} {password : String} {b : Bool}
    (h : c.accepts password = .ok b) (f : Bool → Action β) :
    Assures fails ok (matching c password >>= f) post s ↔ Assures fails ok (f b) post s := by
  rw [matching, h]
  exact assures_outcome_ok_bind b f

theorem assures_demand {c : Credential} {password : String}
    (h : c.accepts password = .ok true) (f : Unit → Action β) :
    Assures fails ok (demand c password >>= f) post s ↔ Assures fails ok (f ()) post s := by
  rw [demand, bind_assoc, assures_matching h]
  exact Iff.rfl

theorem assures_demand_false {c : Credential} {password : String}
    (h : c.accepts password = .ok false) (f : Unit → Action β) :
    Assures fails ok (demand c password >>= f) post s ↔ post (.error .wrongPassword) s := by
  rw [demand, bind_assoc, assures_matching h]
  exact Iff.rfl

theorem assures_newCredential {password : String} (h : password ≠ "") (f : Credential → Action β) :
    Assures fails ok (newCredential password >>= f) post s ↔
      Assures fails ok (f (freshCredential s.entropy password)) post
        { s with entropy := afterCredential s.entropy } := by
  rw [newCredential, if_neg h]
  exact Iff.rfl

theorem assures_newCredential_empty (f : Credential → Action β) :
    Assures fails ok (newCredential "" >>= f) post s ↔ post (.error (.input .emptyPassword)) s := by
  rw [newCredential, if_pos rfl]
  exact Iff.rfl

theorem assures_sealPhrase (owner phrase : String) (c : Credential) (password : String)
    (f : SealedPhrase → Action β) :
    Assures fails ok (sealPhrase owner phrase c password >>= f) post s ↔
      Assures fails ok (f (freshPhrase s.entropy owner phrase (c.cipherKey password))) post
        { s with entropy := s.entropy.advance Iv.freshLength } := by
  rw [sealPhrase, drawIv, bind_assoc, bind_assoc, assures_draw_bind]
  simp only [bind_assoc, pure_bind]
  rw [Sealing.encrypt_of_usable (length_cipherKey c password) (usable_fresh s.entropy)]
  exact assures_outcome_ok_bind _ _

theorem assures_readPhrase {bytes : Bytes} {p : SealedPhrase} (h : SealedPhrase.read bytes = .ok p)
    (f : SealedPhrase → Action β) :
    Assures fails ok (readPhrase bytes >>= f) post s ↔ Assures fails ok (f p) post s := by
  rw [readPhrase, h]
  exact assures_outcome_ok_bind p f

theorem assures_requirePhrase {owner : String} {bytes : Bytes} {p : SealedPhrase}
    (h : s.store[Key.phrase owner]? = some bytes) (hr : SealedPhrase.read bytes = .ok p)
    (ho : p.owner = owner) (f : SealedPhrase → Action β) :
    Assures fails ok (requirePhrase owner >>= f) post s ↔ Assures fails ok (f p) post s := by
  rw [requirePhrase, loadPhrase, bind_assoc, bind_assoc, assures_fetch_bind, h]
  simp only [bind_assoc]
  rw [assures_readPhrase hr, if_neg (not_not.mpr ho)]
  exact Iff.rfl

theorem assures_requirePhrase_none {owner : String} (h : s.store[Key.phrase owner]? = none)
    (f : SealedPhrase → Action β) :
    Assures fails ok (requirePhrase owner >>= f) post s ↔ post (.error (.phraseNotFound owner)) s := by
  rw [requirePhrase, loadPhrase, bind_assoc, bind_assoc, assures_fetch_bind, h]
  exact Iff.rfl

/-- A record that opens is required and opened. -/
theorem assures_openPhrase {owner text password : String} {bytes : Bytes} {c : Credential}
    (h : s.store[Key.phrase owner]? = some bytes)
    (ho : Opens bytes owner (c.cipherKey password) text) (f : String → Action β) :
    Assures fails ok (requirePhrase owner >>= fun p => openPhrase p c password >>= f) post s ↔
      Assures fails ok (f text) post s := by
  obtain ⟨p, hr, hp, hd⟩ := ho
  rw [assures_requirePhrase h hr hp, openPhrase, hd]
  exact assures_outcome_ok_bind text f

theorem assures_sealedOwners (f : List String → Action β) :
    Assures fails ok (sealedOwners >>= f) post s ↔
      Assures fails ok (f (Records.owners s.store)) post s := Iff.rfl

end Action
end PhraseVault.Vault
