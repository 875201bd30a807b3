import PhraseVault.Proofs.Vault.Contents

/-!
# Operations on records that keep what a vault has

Each operation is refused, or answers and takes effect, as the contents say. If a change fails, or the
process stops, the records keep what the remainder of the operation says.
-/
namespace PhraseVault.Vault
variable {fails : Prop} {agrees : String → Bool} {s : Session Records} {x y : Records}
variable {v : Option Contents}

namespace Operation

/-- Passwords agree when the stored credential accepts them, and then they derive its cipher key. -/
def Judged (agrees : String → Bool) (y : Records) (v : Option Contents) (op : Operation) : Prop :=
  ∀ c, v = some c → ∀ d, Stored y d → ∀ candidate ∈ op.candidates,
    d.accepts candidate = .ok (agrees candidate) ∧
      (agrees candidate = true → d.cipherKey candidate = d.cipherKey c.password)

/-- The credential that an operation makes is not the stored one. -/
def Fresh (e : Entropy) (y : Records) (op : Operation) : Prop :=
  ∀ password, op.renewal? = some password → ∀ d, Stored y d → freshCredential e password ≠ d

/-- Only an operation that renews the credential needs fresh random bytes. -/
theorem fresh_of_renewal?_eq_none {op : Operation} (h : op.renewal? = none) (e : Entropy)
    (y : Records) : op.Fresh e y := by
  intro password hp
  cases h.symm.trans hp

/-- How an operation ends: stopped by a failed change, refused, or with an answer and its effect. -/
def Meets (fails : Prop) (agrees : String → Bool) (v : Option Contents) (op : Operation)
    (ids : List String) (r : Except Fault Answer) (t : Session Records) : Prop :=
  t.ids = ids ∧ ((fails ∧ ∃ fault, r = .error (.io fault)) ∨
    match op.refusal agrees v with
    | some fault => r = .error fault ∧ Holds fails t.store v
    | none => ∃ a, r = .ok a ∧ op.Answers agrees v a ∧ Holds fails t.store (op.effect v))

variable {op : Operation} {ids : List String} {t : Session Records}

theorem Meets.stopped (hi : t.ids = ids) (hf : fails) (fault : IoFault) :
    op.Meets fails agrees v ids (.error (.io fault)) t :=
  ⟨hi, .inl ⟨hf, fault, rfl⟩⟩

theorem Meets.refused {fault : Fault} (h : op.refusal agrees v = some fault) (hi : t.ids = ids)
    (hv : Represents t.store v) : op.Meets fails agrees v ids (.error fault) t := by
  refine ⟨hi, .inr ?_⟩
  rw [h]
  exact ⟨rfl, hv.holds⟩

theorem Meets.answered {a : Answer} (h : op.refusal agrees v = none) (hi : t.ids = ids)
    (ha : op.Answers agrees v a) (hv : Represents t.store (op.effect v)) :
    op.Meets fails agrees v ids (.ok a) t := by
  refine ⟨hi, .inr ?_⟩
  rw [h]
  exact ⟨a, rfl, ha, hv.holds⟩

/-- Records that an operation may leave behind when it is stopped. -/
def Leaves (fails : Prop) (v : Option Contents) (before : Records) (op : Operation) (x : Records) :
    Prop := fails → Keeps x (op.remainder v before x)

/-- Settling is not yet what an operation does. -/
theorem leaves_of_settles (op : Operation) {z : Records} (hz : Settles z y) (hv : Represents y v)
    (x : Records) (hx : Settles x y) : op.Leaves fails v z x := by
  intro _
  have hcredential : x[Key.credential]? = z[Key.credential]? := by
    rw [← hx.plain _ Key.isPlain_credential, ← hz.plain _ Key.isPlain_credential]
  have hphrase : ∀ owner, Key.phrase owner ∈ x ↔ Key.phrase owner ∈ z := fun owner => by
    rw [← hx.mem_phrase, ← hz.mem_phrase]
  have hkeeps : Keeps x v := ⟨y, hx, hv⟩
  cases op with
  | setPassword password => rwa [remainder, if_pos hcredential]
  | changePassword current password => rwa [remainder, if_pos hcredential]
  | sealFor owner phrase password =>
    rwa [remainder, if_neg fun h => h.2 ((hphrase owner).mp h.1)]
  | remove owner => rwa [remainder, if_neg fun h => h.2 ((hphrase owner).mpr h.1)]
  | wipe =>
    cases v with
    | none => simpa [remainder] using hkeeps
    | some c =>
      obtain ⟨d, hd⟩ := hv
      have hm : Key.credential ∈ x := hx.mem_credential.mp hd.mem_credential
      simp only [remainder, if_pos hm, ← hx.mem_phrase]
      exact ⟨y, hx, d, hd.thinned (.refl y)⟩
  | _ => exact hkeeps

/-- What opens an operation settles, and what it is about comes after. -/
theorem assures_opening {α : Type} (g : α → Answer) {act : Action Unit} {f : Unit → Action α}
    (hact : Action.Assures fails (Settles · y) act (Action.Settling fails y s) s)
    (hx : Settles s.store y) (hv : Represents y v)
    (hf : ∀ log, Action.Assures fails (op.Leaves fails v s.store) (f ())
      (fun r t => op.Meets fails agrees v s.ids (r.map g) t) ⟨y, s.entropy, s.ids, log⟩) :
    Action.Assures fails (op.Leaves fails v s.store) (act >>= f)
      (fun r t => op.Meets fails agrees v s.ids (r.map g) t) s := by
  refine Action.assures_settling_bind hact (op.leaves_of_settles hx hv) ?_ hf
  exact fun hfails fault _ hi _ => Meets.stopped hi hfails fault

end Operation

namespace Action
open Operation

section Reading
variable (hx : Settles s.store y) (hv : Represents y v)
include hx hv

theorem meets_hasPassword :
    Assures fails (Operation.hasPassword.Leaves fails v s.store) Vault.hasPassword
      (fun r t => Operation.hasPassword.Meets fails agrees v s.ids (r.map .flag) t) s := by
  refine assures_opening _ (assures_shared hx) hx hv fun log => ?_
  rw [assures_fetch_bind, assures_pure]
  exact Meets.answered rfl rfl (congrArg Answer.flag hv.isSome_credential) hv

theorem meets_state :
    Assures fails (Operation.state.Leaves fails v s.store) Vault.state
      (fun r t => Operation.state.Meets fails agrees v s.ids (r.map .state) t) s := by
  refine assures_opening _ (assures_shared hx) hx hv fun log => ?_
  cases v with
  | none =>
    rw [assures_loadCredential_none hv.credential_eq_none]
    refine (assures_pure _).mpr ?_
    exact Meets.answered rfl rfl rfl hv
  | some c =>
    obtain ⟨d, hd⟩ := hv
    rw [assures_loadCredential hd.stored]
    refine (assures_sealedOwners _).mpr ((assures_pure _).mpr ?_)
    refine Meets.answered rfl rfl ?_ hd.represents
    exact congrArg (fun n => Answer.state (.passwordSet n)) hd.represents.length_owners

theorem meets_hasPhrase (owner : String) :
    Assures fails ((Operation.hasPhrase owner).Leaves fails v s.store) (Vault.hasPhrase owner)
      (fun r t => (Operation.hasPhrase owner).Meets fails agrees v s.ids (r.map .flag) t) s := by
  refine assures_opening _ (assures_shared hx) hx hv fun log => ?_
  rw [assures_fetch_bind, assures_pure]
  refine Meets.answered rfl rfl (congrArg Answer.flag ?_) hv
  rw [Bool.eq_iff_iff, decide_eq_true_iff, ← hv.mem_phrase, Std.ExtTreeMap.mem_iff_isSome_getElem?]

theorem meets_owners :
    Assures fails (Operation.owners.Leaves fails v s.store) Vault.owners
      (fun r t => Operation.owners.Meets fails agrees v s.ids (r.map .list) t) s := by
  refine assures_opening _ (assures_shared hx) hx hv fun log => ?_
  rw [← bind_pure sealedOwners, assures_sealedOwners, assures_pure]
  exact Meets.answered rfl rfl (congrArg Answer.list hv.owners) hv

theorem meets_verifyPassword (candidate : String)
    (hj : (Operation.verifyPassword candidate).Judged agrees y v) :
    Assures fails ((Operation.verifyPassword candidate).Leaves fails v s.store)
      (Vault.verifyPassword candidate)
      (fun r t => (Operation.verifyPassword candidate).Meets fails agrees v s.ids (r.map .flag) t)
      s := by
  refine assures_opening _ (assures_shared hx) hx hv fun log => ?_
  cases v with
  | none =>
    rw [assures_requireCredential_none hv.credential_eq_none]
    exact Meets.refused rfl rfl hv
  | some c =>
    obtain ⟨d, hd⟩ := hv
    obtain ⟨haccepts, -⟩ := hj c rfl d hd.stored candidate List.mem_cons_self
    rw [assures_requireCredential hd.stored, assures_matching haccepts]
    cases hb : agrees candidate with
    | false =>
      refine (assures_report_bind _ _).mpr ((assures_pure _).mpr ?_)
      exact Meets.answered rfl rfl (congrArg Answer.flag hb.symm) hd.represents
    | true =>
      refine (assures_pure _).mpr ?_
      exact Meets.answered rfl rfl (congrArg Answer.flag hb.symm) hd.represents

theorem meets_reveal (owner password : String)
    (hj : (Operation.reveal owner password).Judged agrees y v) :
    Assures fails ((Operation.reveal owner password).Leaves fails v s.store)
      (Vault.reveal owner password)
      (fun r t => (Operation.reveal owner password).Meets fails agrees v s.ids (r.map .text) t) s := by
  refine assures_opening _ (assures_shared hx) hx hv fun log => ?_
  cases v with
  | none =>
    rw [assures_requireCredential_none hv.credential_eq_none]
    exact Meets.refused rfl rfl hv
  | some c =>
    obtain ⟨d, hd⟩ := hv
    obtain ⟨-, hkey⟩ := hj c rfl d hd.stored password List.mem_cons_self
    rw [assures_requireCredential hd.stored]
    cases ht : c.phrases[owner]? with
    | none =>
      rw [assures_requirePhrase_none (hd.phrase_eq_none ht)]
      refine Meets.refused ?_ rfl hd.represents
      simp [refusal, phrasesOf, ← Records.getElem?_eq_none_iff, ht]
    | some text =>
      obtain ⟨bytes, hb, hopens⟩ := hd.exists_opens ht
      have hl : (d.cipherKey password).length = (d.cipherKey c.password).length :=
        (length_cipherKey d _).trans (length_cipherKey d _).symm
      obtain ⟨text', hopens'⟩ := hopens.exists_opens hl
      rw [← bind_pure (requirePhrase owner >>= _), bind_assoc, assures_openPhrase hb hopens',
        assures_pure]
      refine Meets.answered ?_ rfl ⟨text', rfl, fun hagrees => ?_⟩ hd.represents
      · simp [refusal, phrasesOf, ← Records.getElem?_eq_none_iff, ht]
      · rw [hkey hagrees] at hopens'
        rw [hopens'.unique hopens]
        exact ht

end Reading

theorem exists_loadCredential {β : Type} {ok : Records → Prop}
    {post : Except Fault β → Session Records → Prop} (hv : Represents s.store v) :
    ∃ stored, ∀ f : Option Credential → Action β,
      Assures fails ok (loadCredential >>= f) post s ↔ Assures fails ok (f stored) post s := by
  cases v with
  | none => exact ⟨none, assures_loadCredential_none hv.credential_eq_none⟩
  | some c =>
    obtain ⟨d, hd⟩ := hv
    exact ⟨some d, assures_loadCredential hd.stored⟩

/-- A credential that is not the stored one is not written like it. -/
theorem credential_ne_of_fresh {before : Records} (hx : Settles before y) {d : Credential}
    (hne : ∀ e, Stored y e → d ≠ e) (hc : x[Key.credential]? = some d.write) :
    x[Key.credential]? ≠ before[Key.credential]? := by
  intro he
  refine hne d ?_ rfl
  exact ⟨d.write, by rw [hx.plain _ Key.isPlain_credential, ← he, hc], d.read_write⟩

private theorem assures_deletePhrases {d : Credential} {c : Contents} {before : Records}
    {post : Except Fault Unit → Session Records → Prop} (hd : Contains y d c)
    (owners : List String) {t : Session Records} (ht : Thinned y t.store)
    (hio : fails → ∀ fault u, u.ids = t.ids → post (.error (.io fault)) u) {f : Unit → Action Unit}
    (hf : ∀ u : Session Records, u.ids = t.ids → Thinned y u.store →
      (∀ o, Key.phrase o ∈ u.store → o ∉ owners ∧ Key.phrase o ∈ t.store) →
      Assures fails (Operation.wipe.Leaves fails (some c) before) (f ()) post u) :
    Assures fails (Operation.wipe.Leaves fails (some c) before) (deletePhrases owners >>= f) post
      t := by
  induction owners generalizing t with
  | nil => exact hf t rfl ht fun o ho => ⟨List.not_mem_nil, ho⟩
  | cons owner owners ih =>
    have hthin := ht.erase owner
    have hleft := (hd.thinned hthin)
    rw [deletePhrases, bind_assoc, assures_erase_bind]
    refine ⟨fun hfails fault => hio hfails fault t rfl, fun _ => ?_, ?_⟩
    · rw [remainder, if_pos hleft.mem_credential]
      exact hleft.represents.keeps
    · refine ih (t := { t with store := t.store.erase (Key.phrase owner) }) hthin hio
        fun u hi hu hm => hf u hi hu fun o ho => ?_
      obtain ⟨hn, hi⟩ := hm o ho
      rw [Std.ExtTreeMap.mem_erase, ne_eq, Std.compare_eq_iff_eq, Key.phrase_inj] at hi
      exact ⟨fun hc => (List.mem_cons.mp hc).elim (fun he => hi.1 he.symm) hn, hi.2⟩

/-- Nothing is left of a vault without its phrases and credential. -/
private theorem erase_credential_of_thinned (hv : Represents y v) {z : Records} (hz : Thinned y z)
    (hm : ∀ o, Key.phrase o ∈ z → o ∉ Records.owners y) : z.erase Key.credential = ∅ := by
  rw [Std.ExtTreeMap.eq_empty_iff_forall_not_mem]
  intro key hk
  obtain ⟨hne, hk⟩ := Std.ExtTreeMap.mem_erase.mp hk
  rcases hv.key key (hz.mem hk) with rfl | ⟨o, -, rfl⟩
  · exact hne (Std.compare_eq_iff_eq.mpr rfl)
  · exact hm o hk (Records.mem_owners.mpr (hz.mem hk))

/-- A phrase is sealed for an owner that has none. -/
private theorem meets_sealing {d : Credential} {c : Contents} (hx : Settles s.store y)
    (hd : Contains y d c) {owner phrase password : String} (ho : owner ≠ "")
    (hm : Key.phrase owner ∉ y) (hk : d.cipherKey password = d.cipherKey c.password)
    (hr : (Operation.sealFor owner phrase password).refusal agrees (some c) = none)
    (log : List Event) :
    Assures fails ((Operation.sealFor owner phrase password).Leaves fails (some c) s.store)
      (do
        let p ← sealPhrase owner phrase d password
        savePhrase p
        report (.phraseSealed owner)
        return p)
      (fun r t => (Operation.sealFor owner phrase password).Meets fails agrees (some c) s.ids
        (r.map .record) t) ⟨y, s.entropy, s.ids, log⟩ := by
  have hopens : Opens (freshPhrase s.entropy owner phrase (d.cipherKey password)).write owner
      (d.cipherKey c.password) phrase := by
    rw [← hk]
    exact opens_freshPhrase s.entropy owner phrase (length_cipherKey d password)
  have hset := (hd.insert_phrase ho ((hd.mem_phrase owner).not.mp hm) hopens).represents
  rw [assures_sealPhrase, savePhrase, assures_put_bind, assures_report_bind, assures_pure]
  refine ⟨fun hfails fault => Meets.stopped rfl hfails fault, fun _ => ?_, ?_⟩
  · rw [remainder, if_pos ⟨by simp [freshPhrase], (hx.mem_phrase owner).not.mp hm⟩]
    exact hset.keeps
  · exact Meets.answered hr rfl ⟨_, rfl, rfl⟩ hset

/-- A password is changed that may be changed. -/
private theorem meets_rotation {d : Credential} {c : Contents} (hx : Settles s.store y)
    (hd : Contains y d c) {current password : String} (ha : d.accepts current = .ok true)
    (hk : d.cipherKey current = d.cipherKey c.password) (hp : password ≠ "")
    (hfresh : fails → (Operation.changePassword current password).Fresh s.entropy y)
    (hr : (Operation.changePassword current password).refusal agrees (some c) = none) :
    Assures fails ((Operation.changePassword current password).Leaves fails (some c) s.store)
      (Vault.changePassword current password)
      (fun r t => (Operation.changePassword current password).Meets fails agrees (some c) s.ids
        (r.map fun _ => .done) t) s := by
  have hne : fails → freshCredential s.entropy password ≠ d :=
    fun hfails => hfresh hfails password rfl d hd.stored
  refine (assures_changePassword hx (hd.rotatable ha hk) hp hne).mono ?_ ?_
  · intro x hbetween hfails
    rcases hbetween hfails with h | ⟨y', h, hrotates⟩
    · exact leaves_of_settles _ hx hd.represents x h hfails
    · have hnew : x[Key.credential]? = some (freshCredential s.entropy password).write := by
        rw [← h.plain _ Key.isPlain_credential, hrotates.credential]
      rw [remainder, if_neg (credential_ne_of_fresh hx (hfresh hfails password rfl) hnew)]
      exact ⟨y', h, _, hd.rotates hk hrotates⟩
  · rintro r t ⟨hi, hend⟩
    rcases hend with ⟨rfl, y', hrotates, ht, hdone⟩ | ⟨hfails, ⟨fault, rfl⟩, -⟩
    · have hafter := (hd.rotates hk hrotates).represents
      refine ⟨hi, .inr ?_⟩
      rw [hr]
      refine ⟨.done, rfl, rfl, ⟨y', ht, hafter⟩, hdone.imp_left fun he => ?_⟩
      rw [he]
      exact hafter
    · exact Meets.stopped hi hfails fault

section Writing
variable (hx : Settles s.store y) (hv : Represents y v)
include hx hv

theorem meets_setPassword (password : String)
    (hfresh : fails → (Operation.setPassword password).Fresh s.entropy y) :
    Assures fails ((Operation.setPassword password).Leaves fails v s.store)
      (Vault.setPassword password)
      (fun r t => (Operation.setPassword password).Meets fails agrees v s.ids
        (r.map fun _ => .done) t) s := by
  refine assures_opening _ (assures_settle hx) hx hv fun log => ?_
  rw [assures_sealedOwners]
  by_cases hsize : (phrasesOf v).size = 0
  · have hnil : Records.owners y = [] := by
      rw [← List.length_eq_zero_iff, hv.length_owners, hsize]
    obtain ⟨stored, hload⟩ := exists_loadCredential (s := ⟨y, s.entropy, s.ids, log⟩) hv
    rw [if_neg (not_not.mpr hnil), hload]
    by_cases hp : password = ""
    · subst hp
      rw [assures_newCredential_empty]
      exact Meets.refused (by simp [refusal, hsize]) rfl hv
    · have hset := hv.insert_credential hsize s.entropy password
      rw [assures_newCredential hp, saveCredential, assures_put_bind, assures_report]
      refine ⟨fun hfails fault => Meets.stopped rfl hfails fault, fun hfails => ?_, ?_⟩
      · have hnew : (y.insert Key.credential (freshCredential s.entropy password).write)[
            Key.credential]? = some (freshCredential s.entropy password).write := by
          rw [Records.getElem?_insert, if_pos rfl]
        rw [remainder, if_neg (credential_ne_of_fresh hx (hfresh hfails password rfl) hnew)]
        exact hset.keeps
      · exact Meets.answered (by simp [refusal, hsize, hp]) rfl rfl hset
  · have hne : Records.owners y ≠ [] := by
      rw [ne_eq, ← List.length_eq_zero_iff, hv.length_owners]
      exact hsize
    rw [if_pos hne]
    refine Meets.refused ?_ rfl hv
    simp [refusal, hsize, hv.length_owners]

theorem meets_remove (owner : String) :
    Assures fails ((Operation.remove owner).Leaves fails v s.store) (Vault.remove owner)
      (fun r t => (Operation.remove owner).Meets fails agrees v s.ids (r.map fun _ => .done) t)
      s := by
  refine assures_opening _ (assures_settle hx) hx hv fun log => ?_
  rw [assures_fetch_bind]
  by_cases hm : Key.phrase owner ∈ y
  · have hn : ¬ y[Key.phrase owner]?.isNone := by
      rw [Option.isNone_iff_eq_none]
      exact Records.getElem?_ne_none_iff.mpr hm
    have ho := (hv.mem_phrase owner).mp hm
    rw [if_neg hn, assures_erase_bind, assures_report]
    have herase : Represents (y.erase (Key.phrase owner)) ((Operation.remove owner).effect v) := by
      cases v with
      | none => exact absurd ho Std.ExtTreeMap.not_mem_empty
      | some c =>
        obtain ⟨d, hd⟩ := hv
        exact ⟨d, hd.erase_phrase owner⟩
    refine ⟨fun hfails fault => Meets.stopped rfl hfails fault, fun _ => ?_, ?_⟩
    · rw [remainder, if_pos ⟨(hx.mem_phrase owner).mp hm, by simp⟩]
      exact herase.keeps
    · exact Meets.answered (by simp [refusal, ho]) rfl rfl herase
  · have hn : y[Key.phrase owner]?.isNone := by
      rw [Option.isNone_iff_eq_none, Records.getElem?_eq_none_iff]
      exact hm
    rw [if_pos hn]
    refine Meets.refused ?_ rfl hv
    simp [refusal, ← hv.mem_phrase, hm]

theorem meets_changePassword (current password : String)
    (hj : (Operation.changePassword current password).Judged agrees y v)
    (hfresh : fails → (Operation.changePassword current password).Fresh s.entropy y) :
    Assures fails ((Operation.changePassword current password).Leaves fails v s.store)
      (Vault.changePassword current password)
      (fun r t => (Operation.changePassword current password).Meets fails agrees v s.ids
        (r.map fun _ => .done) t) s := by
  cases v with
  | none =>
    refine assures_opening _ (assures_settle hx) hx hv fun log => ?_
    rw [assures_requireCredential_none hv.credential_eq_none]
    exact Meets.refused rfl rfl hv
  | some c =>
    obtain ⟨d, hd⟩ := hv
    obtain ⟨haccepts, hkey⟩ := hj c rfl d hd.stored current List.mem_cons_self
    cases hagrees : agrees current with
    | false =>
      refine assures_opening _ (assures_settle hx) hx hd.represents fun log => ?_
      rw [hagrees] at haccepts
      rw [assures_requireCredential hd.stored, assures_demand_false haccepts]
      exact Meets.refused (by simp [refusal, hagrees]) rfl hd.represents
    | true =>
      rw [hagrees] at haccepts
      by_cases hp : password = ""
      · subst hp
        refine assures_opening _ (assures_settle hx) hx hd.represents fun log => ?_
        rw [assures_requireCredential hd.stored, assures_demand haccepts,
          assures_newCredential_empty]
        exact Meets.refused (by simp [refusal, hagrees]) rfl hd.represents
      · exact meets_rotation hx hd haccepts (hkey hagrees) hp hfresh (by simp [refusal, hagrees, hp])

theorem meets_sealFor (hq : s.store = y ∨ fails) (owner phrase password : String)
    (hj : (Operation.sealFor owner phrase password).Judged agrees y v) :
    Assures fails ((Operation.sealFor owner phrase password).Leaves fails v s.store)
      (Vault.sealFor owner phrase password)
      (fun r t => (Operation.sealFor owner phrase password).Meets fails agrees v s.ids
        (r.map .record) t) s := by
  -- the first two checks come before settling
  have hearly : ∀ fault, (Operation.sealFor owner phrase password).refusal agrees v = some fault →
      (Operation.sealFor owner phrase password).Meets fails agrees v s.ids (.error fault) s := by
    intro fault hr
    refine ⟨rfl, .inr ?_⟩
    rw [hr]
    refine ⟨rfl, ⟨y, hx, hv⟩, hq.imp_left fun he => ?_⟩
    rwa [he]
  rw [Vault.sealFor]
  by_cases ho : owner = ""
  · rw [if_pos ho, assures_throw_bind]
    exact hearly _ (if_pos ho)
  rw [if_neg ho]
  by_cases hblank : isBlank phrase
  · rw [if_pos hblank, assures_throw_bind]
    exact hearly _ (by rw [refusal, if_neg ho, if_pos hblank])
  rw [if_neg hblank]
  refine assures_opening _ (assures_settle hx) hx hv fun log => ?_
  cases v with
  | none =>
    rw [assures_requireCredential_none hv.credential_eq_none]
    exact Meets.refused (by simp [refusal, ho, hblank]) rfl hv
  | some c =>
    obtain ⟨d, hd⟩ := hv
    obtain ⟨haccepts, hkey⟩ := hj c rfl d hd.stored password List.mem_cons_self
    rw [assures_requireCredential hd.stored]
    cases hagrees : agrees password with
    | false =>
      rw [hagrees] at haccepts
      rw [assures_demand_false haccepts]
      exact Meets.refused (by simp [refusal, ho, hblank, hagrees]) rfl hd.represents
    | true =>
      rw [hagrees] at haccepts
      rw [assures_demand haccepts, assures_fetch_bind]
      by_cases hm : Key.phrase owner ∈ y
      · have hs : y[Key.phrase owner]?.isSome := by
          rw [Option.isSome_iff_ne_none]
          exact Records.getElem?_ne_none_iff.mpr hm
        rw [if_pos hs]
        refine Meets.refused ?_ rfl hd.represents
        simp [refusal, ho, hblank, hagrees, phrasesOf, ← hd.mem_phrase, hm]
      · have hs : ¬ y[Key.phrase owner]?.isSome := by
          rw [Option.isSome_iff_ne_none, not_not]
          exact Records.getElem?_eq_none_iff.mpr hm
        rw [if_neg hs]
        refine meets_sealing hx hd ho hm (hkey hagrees) ?_ log
        simp [refusal, ho, hblank, hagrees, phrasesOf, ← hd.mem_phrase, hm]

theorem meets_wipe :
    Assures fails (Operation.wipe.Leaves fails v s.store) Vault.wipe
      (fun r t => Operation.wipe.Meets fails agrees v s.ids (r.map fun _ => .done) t) s := by
  refine assures_opening _ (assures_settle hx) hx hv fun log => ?_
  rw [assures_sealedOwners]
  have hlast : ∀ u : Session Records, u.ids = s.ids → Thinned y u.store →
      (∀ o, Key.phrase o ∈ u.store → o ∉ Records.owners y) →
      Assures fails (Operation.wipe.Leaves fails v s.store)
        (do erase Key.credential; report (.wiped (Records.owners y).length))
        (fun r t => Operation.wipe.Meets fails agrees v s.ids (r.map fun _ => .done) t) u := by
    intro u hi hu hm
    have hempty := erase_credential_of_thinned hv hu hm
    rw [assures_erase_bind, assures_report, hempty]
    refine ⟨fun hfails fault => Meets.stopped hi hfails fault, fun _ => ?_, ?_⟩
    · rw [remainder, if_neg Std.ExtTreeMap.not_mem_empty]
      exact Represents.keeps (v := none) rfl
    · exact Meets.answered rfl hi rfl rfl
  cases v with
  | none =>
    have hnil : Records.owners y = [] := by
      rw [← List.length_eq_zero_iff, hv.length_owners]
      rfl
    rw [hnil] at hlast ⊢
    exact hlast ⟨y, s.entropy, s.ids, log⟩ rfl (.refl y) fun _ _ => List.not_mem_nil
  | some c =>
    obtain ⟨d, hd⟩ := hv
    refine assures_deletePhrases hd _ (t := ⟨y, s.entropy, s.ids, log⟩) (.refl y)
      (fun hfails fault u hi => Meets.stopped hi hfails fault) fun u hi hu hm => ?_
    exact hlast u hi hu fun o ho => (hm o ho).1

end Writing

/-- Every operation, whatever changes fail. -/
theorem meets_program {op : Operation} (hx : Settles s.store y) (hv : Represents y v)
    (hq : s.store = y ∨ fails) (hj : op.Judged agrees y v) (hfresh : fails → op.Fresh s.entropy y) :
    Assures fails (op.Leaves fails v s.store) op.program (op.Meets fails agrees v s.ids) s := by
  cases op with
  | hasPassword => exact assures_map _ (meets_hasPassword hx hv)
  | state => exact assures_map _ (meets_state hx hv)
  | setPassword password => exact assures_map _ (meets_setPassword hx hv password hfresh)
  | verifyPassword candidate => exact assures_map _ (meets_verifyPassword hx hv candidate hj)
  | changePassword current password =>
    exact assures_map _ (meets_changePassword hx hv current password hj hfresh)
  | sealFor owner phrase password =>
    exact assures_map _ (meets_sealFor hx hv hq owner phrase password hj)
  | reveal owner password => exact assures_map _ (meets_reveal hx hv owner password hj)
  | hasPhrase owner => exact assures_map _ (meets_hasPhrase hx hv owner)
  | owners => exact assures_map _ (meets_owners hx hv)
  | remove owner => exact assures_map _ (meets_remove hx hv owner)
  | wipe => exact assures_map _ (meets_wipe hx hv)

end Action

/-- What a caller asks for: an operation, or sealing for an owner that is minted. -/
inductive Request where
  | perform (op : Operation)
  | sealNew (phrase password : String)

namespace Request
open Vault.Action

def program : Request → Action Answer
  | perform op => op.program
  | sealNew phrase password => Answer.record <$> Vault.sealNew phrase password

/-- The operation asked for, once an owner has been minted. -/
def operation (ids : List String) : Request → Operation
  | perform op => op
  | sealNew phrase password => .sealFor (ids.headD "") phrase password

/-- The ids that are left to be minted. -/
def idsAfter (ids : List String) : Request → List String
  | perform _ => ids
  | sealNew _ _ => ids.tail

/-- Every request, whatever changes fail. -/
theorem meets_program {q : Request} (hx : Settles s.store y) (hv : Represents y v)
    (hq : s.store = y ∨ fails) (hj : (q.operation s.ids).Judged agrees y v)
    (hfresh : fails → (q.operation s.ids).Fresh s.entropy y) :
    Assures fails ((q.operation s.ids).Leaves fails v s.store) q.program
      ((q.operation s.ids).Meets fails agrees v (q.idsAfter s.ids)) s := by
  cases q with
  | perform op => exact Action.meets_program hx hv hq hj hfresh
  | sealNew phrase password =>
    refine assures_map _ ((assures_mint_bind _).mpr ?_)
    exact meets_sealFor (s := { s with ids := s.ids.tail }) hx hv hq _ phrase password hj

end Request

section
variable {σ : Type} [RecordStore σ]

/-- The session after a sequence of requests. -/
def Session.after (s : Session σ) : List Request → Session σ
  | [] => s
  | q :: qs => (q.program.run.run s).2.after qs

/-- What a sequence of requests comes to, over any store. -/
def outcomes (s : Session σ) : List Request → List (Except Fault Answer)
  | [] => []
  | q :: qs => (q.program.run.run s).1 :: outcomes (q.program.run.run s).2 qs

end
end PhraseVault.Vault
