import PhraseVault.Proofs.Vault.Settling

/-!
# Staging a rotation

While a rotation is staged the records stand for what they were; once the credential is replaced they
stand for the rotated records. The replacement is one change, so there is nothing in between.
-/
namespace PhraseVault.Vault
variable {y : Records} {next : Credential} {ps : List SealedPhrase}

/-- Writes sealed phrases under keys that their owners give. -/
def putAll (key : String → String) (ps : List SealedPhrase) (r : Records) : Records :=
  ps.foldl (fun r p => r.insert (key p.owner) p.write) r

/-- What an owner's record is after a list of sealed phrases has been written. -/
def written : List SealedPhrase → String → Option Bytes
  | [], _ => none
  | p :: ps, owner => (written ps owner).or (if p.owner = owner then some p.write else none)

/-- The records with a rotation staged. -/
def staged (y : Records) (next : Credential) (ps : List SealedPhrase) : Records :=
  putAll Key.stagedPhrase ps (y.insert Key.stagedCredential next.write)

/-- The records after a rotation. -/
def rotated (y : Records) (next : Credential) (ps : List SealedPhrase) : Records :=
  putAll Key.phrase ps (y.insert Key.credential next.write)

theorem putAll_append (key : String → String) (ps qs : List SealedPhrase) (r : Records) :
    putAll key (ps ++ qs) r = putAll key qs (putAll key ps r) := List.foldl_append

theorem getElem?_putAll {key : String → String} (hkey : ∀ a b, key a = key b → a = b)
    (ps : List SealedPhrase) (r : Records) (owner : String) :
    (putAll key ps r)[key owner]? = (written ps owner).or r[key owner]? := by
  induction ps generalizing r with
  | nil => rfl
  | cons p ps ih =>
    rw [putAll, List.foldl_cons, ← putAll, ih, written, Option.or_assoc, Records.getElem?_insert]
    by_cases ho : p.owner = owner
    · simp [ho]
    · simp [ho, mt (hkey p.owner owner) ho]

theorem getElem?_putAll_of_ne {key : String → String} {other : String}
    (h : ∀ owner, key owner ≠ other) (ps : List SealedPhrase) (r : Records) :
    (putAll key ps r)[other]? = r[other]? := by
  induction ps generalizing r with
  | nil => rfl
  | cons p ps ih =>
    rw [putAll, List.foldl_cons, ← putAll, ih, Records.getElem?_insert, if_neg (h p.owner)]

theorem exists_of_written {owner : String} (h : written ps owner ≠ none) :
    ∃ p ∈ ps, p.owner = owner := by
  induction ps with
  | nil => exact absurd rfl h
  | cons p ps ih =>
    by_cases ho : p.owner = owner
    · exact ⟨p, List.mem_cons_self, ho⟩
    · obtain ⟨q, hq, hqo⟩ := ih (by simpa [written, ho] using h)
      exact ⟨q, List.mem_cons_of_mem _ hq, hqo⟩

theorem staged_stagedCredential :
    (staged y next ps)[Key.stagedCredential]? = some next.write := by
  rw [staged, getElem?_putAll_of_ne Key.stagedPhrase_ne_stagedCredential, Records.getElem?_insert,
    if_pos rfl]

theorem staged_stagedPhrase (hy : Settles y y) (owner : String) :
    (staged y next ps)[Key.stagedPhrase owner]? = written ps owner := by
  rw [staged, getElem?_putAll (fun _ _ => Key.stagedPhrase_inj.mp), Records.getElem?_insert,
    if_neg (Key.stagedCredential_ne_stagedPhrase owner), hy.stagedPhrase, Option.or_none]

theorem staged_phrase (owner : String) :
    (staged y next ps)[Key.phrase owner]? = y[Key.phrase owner]? := by
  rw [staged, getElem?_putAll_of_ne (fun o => Key.stagedPhrase_ne_phrase o owner),
    Records.getElem?_insert, if_neg (Key.stagedCredential_ne_phrase owner)]

theorem staged_plain {key : String} (h : Key.IsPlain key) : (staged y next ps)[key]? = y[key]? := by
  rw [staged, getElem?_putAll_of_ne (fun o => (h.2.2 o).symm), Records.getElem?_insert,
    if_neg h.1.symm]

theorem rotated_credential : (rotated y next ps)[Key.credential]? = some next.write := by
  rw [rotated, getElem?_putAll_of_ne Key.phrase_ne_credential, Records.getElem?_insert, if_pos rfl]

theorem rotated_phrase (owner : String) :
    (rotated y next ps)[Key.phrase owner]? = (written ps owner).or y[Key.phrase owner]? := by
  rw [rotated, getElem?_putAll (fun _ _ => Key.phrase_inj.mp), Records.getElem?_insert,
    if_neg (Key.credential_ne_phrase owner)]

theorem rotated_other {key : String} (hc : key ≠ Key.credential)
    (hp : ∀ owner, key ≠ Key.phrase owner) : (rotated y next ps)[key]? = y[key]? := by
  rw [rotated, getElem?_putAll_of_ne (fun o => (hp o).symm), Records.getElem?_insert,
    if_neg hc.symm]

private theorem tidy_staged (hy : Settles y y) (hps : ∀ p ∈ ps, Key.phrase p.owner ∈ y)
    (owner : String) (h : Key.stagedPhrase owner ∈ staged y next ps) :
    Key.stagedCredential ∈ staged y next ps ∧ Key.phrase owner ∈ staged y next ps := by
  rw [← Records.getElem?_ne_none_iff, staged_stagedPhrase hy] at h
  obtain ⟨p, hp, rfl⟩ := exists_of_written h
  constructor
  · simp [← Records.getElem?_ne_none_iff, staged_stagedCredential]
  · rw [← Records.getElem?_ne_none_iff, staged_phrase, Records.getElem?_ne_none_iff]
    exact hps p hp

/-- Staged records stand for what they were, as long as the credential is another one. -/
theorem settles_staged (hy : Settles y y) {old : Credential} (hold : Stored y old)
    (hne : next ≠ old) (hps : ∀ p ∈ ps, Key.phrase p.owner ∈ y) : Settles (staged y next ps) y := by
  have hs : Staged (staged y next ps) next := ⟨_, staged_stagedCredential, next.read_write⟩
  have hd : Stored (staged y next ps) old := by
    rwa [Stored, staged_plain Key.isPlain_credential]
  have hn : ¬ Committed (staged y next ps) := fun hc => hne ((committed_iff hs hd).mp hc).symm
  exact ⟨fun _ => ⟨⟨next, hs⟩, ⟨old, hd⟩⟩, tidy_staged hy hps, hy.stagedCredential, hy.stagedPhrase,
    fun hc => absurd hc hn, fun _ owner => (staged_phrase owner).symm,
    fun _ hk => (staged_plain hk).symm⟩

/-- The change that puts the new credential in place makes them stand for the rotated records. -/
theorem settles_rotated (hy : Settles y y) (hps : ∀ p ∈ ps, Key.phrase p.owner ∈ y) :
    Settles ((staged y next ps).insert Key.credential next.write) (rotated y next ps) := by
  have he : ∀ key, Key.credential ≠ key →
      ((staged y next ps).insert Key.credential next.write)[key]? = (staged y next ps)[key]? := by
    intro key hk
    rw [Records.getElem?_insert, if_neg hk]
  have hm : ∀ key, Key.credential ≠ key →
      (key ∈ (staged y next ps).insert Key.credential next.write ↔ key ∈ staged y next ps) := by
    intro key hk
    rw [← Records.getElem?_ne_none_iff, he key hk, Records.getElem?_ne_none_iff]
  have hs : Staged ((staged y next ps).insert Key.credential next.write) next := by
    refine ⟨next.write, ?_, next.read_write⟩
    rw [he _ Key.credential_ne_stagedCredential, staged_stagedCredential]
  have hd : Stored ((staged y next ps).insert Key.credential next.write) next := by
    refine ⟨next.write, ?_, next.read_write⟩
    rw [Records.getElem?_insert, if_pos rfl]
  refine ⟨fun _ => ⟨⟨next, hs⟩, ⟨next, hd⟩⟩, ?_, ?_, ?_, ?_, fun hn => absurd ⟨next, hs, hd⟩ hn, ?_⟩
  · intro owner ho
    obtain ⟨h1, h2⟩ := tidy_staged hy hps owner
      ((hm _ (Key.credential_ne_stagedPhrase owner)).mp ho)
    exact ⟨(hm _ Key.credential_ne_stagedCredential).mpr h1,
      (hm _ (Key.credential_ne_phrase owner)).mpr h2⟩
  · rw [rotated_other Key.stagedCredential_ne_credential Key.stagedCredential_ne_phrase,
      hy.stagedCredential]
  · intro owner
    rw [rotated_other (Key.stagedPhrase_ne_credential owner) (Key.stagedPhrase_ne_phrase owner),
      hy.stagedPhrase]
  · intro _ owner
    rw [he _ (Key.credential_ne_stagedPhrase owner), he _ (Key.credential_ne_phrase owner),
      staged_stagedPhrase hy, staged_phrase, rotated_phrase]
  · intro key hk
    by_cases hc : key = Key.credential
    · rw [hc, rotated_credential, Records.getElem?_insert, if_pos rfl]
    · rw [he key (Ne.symm hc), staged_plain hk, rotated_other hc hk.2.1]

namespace Action
variable {fails : Prop} {s : Session Records}

/-- A rotation in progress: the records stand for the old ones or for the rotated ones. -/
def Between (fails : Prop) (y y' x : Records) : Prop := fails → Settles x y ∨ Settles x y'

/-- How a change of records ends that takes effect as a whole or fails without effect. -/
def Changing (fails : Prop) (y y' : Records) (s : Session Records) (r : Except Fault Unit)
    (t : Session Records) : Prop :=
  t.ids = s.ids ∧
    (r = .ok () ∧ Settles t.store y' ∨ fails ∧ (∃ fault, r = .error (.io fault)) ∧ Settles t.store y)

private theorem assures_stagePhrases {y' : Records} {old : Credential} (hy : Settles y y)
    (hold : Stored y old) (hne : fails → next ≠ old) (ps qs : List SealedPhrase)
    (hps : ∀ p ∈ ps ++ qs, Key.phrase p.owner ∈ y) (hs : s.store = staged y next ps)
    {f : Unit → Action Unit}
    (hf : ∀ t : Session Records, t.ids = s.ids → t.store = staged y next (ps ++ qs) →
      Assures fails (Between fails y y') (f ()) (Changing fails y y' s) t) :
    Assures fails (Between fails y y') (stagePhrases qs >>= f) (Changing fails y y' s) s := by
  induction qs generalizing ps s with
  | nil => exact hf s rfl (by rw [hs, List.append_nil])
  | cons q qs ih =>
    have hsettles : ∀ rs, (∀ p ∈ rs, p ∈ ps ++ q :: qs) → fails → Settles (staged y next rs) y :=
      fun rs hrs hfails => settles_staged hy hold (hne hfails) fun p hp => hps p (hrs p hp)
    have hput : (staged y next ps).insert (Key.stagedPhrase q.owner) q.write =
        staged y next (ps ++ [q]) := by
      rw [staged, staged, putAll_append]
      rfl
    have hq : ps ++ [q] ++ qs = ps ++ q :: qs := by simp
    rw [stagePhrases, bind_assoc, assures_put_bind, hs, hput]
    refine ⟨fun hfails fault => ⟨rfl, .inr ⟨hfails, ⟨fault, rfl⟩, ?_⟩⟩, fun hfails => .inl ?_, ?_⟩
    · rw [hs]
      exact hsettles ps (fun p hp => List.mem_append_left _ hp) hfails
    · refine hsettles _ (fun p hp => ?_) hfails
      rw [← hq]
      exact List.mem_append_left _ hp
    · exact ih (ps ++ [q]) (s := { s with store := staged y next (ps ++ [q]) }) (by rwa [hq]) rfl
        fun t ht hst => hf t ht (by rw [hst, hq])

/-- Staging and replacing the credential, whatever fails. -/
theorem assures_stage {old : Credential} (hy : Settles s.store s.store) (hold : Stored s.store old)
    (hne : fails → next ≠ old) (hps : ∀ p ∈ ps, Key.phrase p.owner ∈ s.store) :
    Assures fails (Between fails s.store (rotated s.store next ps)) (stage next ps)
      (Changing fails s.store (rotated s.store next ps) s) s := by
  rw [stage, assures_put_bind]
  refine ⟨fun hfails fault => ⟨rfl, .inr ⟨hfails, ⟨fault, rfl⟩, hy⟩⟩, fun hfails => .inl ?_, ?_⟩
  · have hnone : ∀ p ∈ ([] : List SealedPhrase), Key.phrase p.owner ∈ s.store := by simp
    exact settles_staged hy hold (hne hfails) hnone
  · refine assures_stagePhrases (s := { s with store := staged s.store next [] }) hy hold hne [] ps
      hps rfl fun t ht hst => ?_
    rw [saveCredential, assures_put, hst]
    have hr : Settles ((staged s.store next ps).insert Key.credential next.write)
        (rotated s.store next ps) := settles_rotated hy hps
    refine ⟨fun hfails fault => ⟨ht, .inr ⟨hfails, ⟨fault, rfl⟩, ?_⟩⟩, fun _ => .inr hr, ht,
      .inl ⟨rfl, hr⟩⟩
    rw [hst]
    exact settles_staged hy hold (hne hfails) hps

end Action
end PhraseVault.Vault
