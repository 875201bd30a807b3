import PhraseVault.Proofs.Vault.Capacity
import PhraseVault.Proofs.Vault.Housing

/-!
# Names that have no room

Sealing a phrase and changing the password write under names that an owner makes long. Where one of
them has no room in the directory the operation fails, and what has been staged by then is discarded:
the vault keeps what it had.
-/
namespace PhraseVault.Vault
open Vault.Action
variable {y z : Records} {d next : Credential} {c : Contents}

/-- A rotation that has been staged in part is discarded. Should its credential be the stored one, the
phrases that have been staged are sealed under the same key as those they replace. -/
theorem Contains.of_resolves_staged {newKey : Bytes} {owners : List String}
    {ps : List SealedPhrase} (h : Contains y d c)
    (hps : Resealed y (d.cipherKey c.password) newKey owners ps)
    (hkey : next = d → newKey = d.cipherKey c.password) (hz : Resolves (staged y next ps) z) :
    Contains z d c := by
  have hy : Settles y y := h.represents.settles
  have hs : Staged (staged y next ps) next := ⟨_, staged_stagedCredential, next.read_write⟩
  have hd : Stored (staged y next ps) d := by
    rw [Stored, staged_plain Key.isPlain_credential]
    exact h.stored
  have hr : Resolved (staged y next ps) z := hz.resolved hs.mem
  have hphrase : ∀ owner, Option.Rel (fun text bytes => Opens bytes owner (d.cipherKey c.password) text)
      c.phrases[owner]? z[Key.phrase owner]? := by
    intro owner
    have hp := h.phrase owner
    by_cases hc : Committed (staged y next ps)
    · rw [hr.phrase_of_committed hc, staged_stagedPhrase hy, staged_phrase]
      rcases hps.written owner with ⟨-, hw⟩ | ⟨bytes, bytes', text, hb, hw, hold, hnew⟩
      · rwa [hw, Option.none_or]
      · rw [hb] at hp
        rw [hw, Option.some_or]
        rw [hkey ((committed_iff hs hd).mp hc).symm] at hnew
        generalize c.phrases[owner]? = kept at hp ⊢
        cases hp with
        | some hopens =>
          rw [hopens.unique hold]
          exact .some hnew
    · rwa [hr.phrase_of_not_committed hc, staged_phrase]
  refine ⟨h.made, ?_, fun key hk => ?_, hphrase⟩
  · rw [stored_congr (hr.plain _ Key.isPlain_credential)]
    exact hd
  · by_cases hstaged : key = Key.stagedCredential ∨ ∃ owner, key = Key.stagedPhrase owner
    · rw [← Records.getElem?_ne_none_iff] at hk
      rcases hstaged with rfl | ⟨owner, rfl⟩
      · exact absurd hr.stagedCredential hk
      · exact absurd (hr.stagedPhrase owner) hk
    rw [not_or, not_exists] at hstaged
    by_cases hp : ∃ owner, key = Key.phrase owner
    · obtain ⟨owner, rfl⟩ := hp
      refine h.key _ ((h.mem_phrase owner).mpr ?_)
      have hrel := hphrase owner
      rw [← Records.getElem?_ne_none_iff] at hk ⊢
      generalize c.phrases[owner]? = text at hrel ⊢
      generalize z[Key.phrase owner]? = bytes at hrel hk
      cases hrel with
      | none => exact absurd rfl hk
      | some _ => simp
    · have hplain : Key.IsPlain key := ⟨hstaged.1, not_exists.mp hp, hstaged.2⟩
      refine h.key key ?_
      rwa [← Records.getElem?_ne_none_iff, hr.plain key hplain, staged_plain hplain,
        Records.getElem?_ne_none_iff] at hk

theorem Filable.putAll_staged (h : Filable y) {ps : List SealedPhrase}
    (hf : ∀ p ∈ ps, Fits (Key.stagedPhrase p.owner)) (hps : ∀ p ∈ ps, Sealed p) :
    Filable (putAll Key.stagedPhrase ps y) := by
  induction ps generalizing y with
  | nil => exact h
  | cons p ps ih =>
    obtain ⟨hfit, hfits⟩ := List.forall_mem_cons.mp hf
    obtain ⟨⟨key, text, hk, hopens⟩, hsealed⟩ := List.forall_mem_cons.mp hps
    exact ih (h.insert hfit (.of_opens (.inr rfl) hk hopens)) hfits hsealed

theorem Filable.staged (h : Filable y) (next : Credential) {ps : List SealedPhrase}
    (hf : ∀ p ∈ ps, Fits (Key.stagedPhrase p.owner)) (hps : ∀ p ∈ ps, Sealed p) :
    Filable (staged y next ps) :=
  (h.insert (by decide) (.of_credential next (.inr rfl))).putAll_staged hf hps

theorem Resealed.sealed {oldKey : Bytes} {password : String} {owners : List String}
    {ps : List SealedPhrase} (h : Resealed y oldKey (next.cipherKey password) owners ps) :
    ∀ p ∈ ps, Sealed p := by
  induction h with
  | nil => exact fun _ => nofun
  | cons hp _ ih =>
    obtain ⟨ho, -, text, -, -, hopens⟩ := hp
    exact List.forall_mem_cons.mpr
      ⟨⟨_, text, length_cipherKey next password, ho ▸ hopens⟩, ih⟩

theorem Operation.changePassword_of_not_refused {agrees : String → Bool} {v : Option Contents}
    {current password : String}
    (h : (Operation.changePassword current password).refusal agrees v = none) :
    ∃ c, v = some c ∧ agrees current = true ∧ password ≠ "" := by
  cases v with
  | none => cases h
  | some c =>
    rw [refusal] at h
    cases hagrees : agrees current with
    | false => simp [hagrees] at h
    | true =>
      refine ⟨c, rfl, rfl, fun hp => ?_⟩
      simp [hagrees, hp] at h

theorem Operation.sealFor_of_not_refused {agrees : String → Bool} {v : Option Contents}
    {owner phrase password : String}
    (h : (Operation.sealFor owner phrase password).refusal agrees v = none) :
    ∃ c, v = some c ∧ agrees password = true ∧ owner ∉ c.phrases := by
  rw [refusal] at h
  split at h
  · cases h
  split at h
  · cases h
  cases v with
  | none => cases h
  | some c =>
    cases hagrees : agrees password with
    | false => simp [hagrees] at h
    | true =>
      refine ⟨c, rfl, rfl, fun hm => ?_⟩
      simp [hagrees, phrasesOf, hm] at h

theorem Operation.changePassword_refused {agrees : String → Bool} {current : String}
    (h : agrees current = false) (v : Option Contents) (password : String) :
    ∃ fault, (Operation.changePassword current password).refusal agrees v = some fault := by
  rw [← Option.ne_none_iff_exists']
  intro hr
  obtain ⟨-, -, hagrees, -⟩ := changePassword_of_not_refused hr
  exact Bool.false_ne_true (h.symm.trans hagrees)

theorem Operation.sealFor_refused {agrees : String → Bool} {password : String}
    (h : agrees password = false) (v : Option Contents) (owner phrase : String) :
    ∃ fault, (Operation.sealFor owner phrase password).refusal agrees v = some fault := by
  rw [← Option.ne_none_iff_exists']
  intro hr
  obtain ⟨-, -, hagrees, -⟩ := sealFor_of_not_refused hr
  exact Bool.false_ne_true (h.symm.trans hagrees)

namespace Action
variable {s : Session Records} {agrees : String → Bool} {v : Option Contents} {fault : Fault}

section Refused
variable (hv : Represents s.store v)
include hv

theorem assures_changePassword_of_refused {current password : String}
    (hj : (Operation.changePassword current password).Judged agrees s.store v)
    (hr : (Operation.changePassword current password).refusal agrees v = some fault) :
    Assures False (fun _ => False) (changePassword current password) (fun r _ => r = .error fault)
      s := by
  rw [changePassword, exclusive, assures_settle_bind hv.settles.stagedCredential]
  cases v with
  | none =>
    rw [assures_requireCredential_none hv.credential_eq_none]
    exact congrArg Except.error (Option.some.inj hr)
  | some c =>
    obtain ⟨d, hd⟩ := hv
    obtain ⟨haccepts, -⟩ := hj c rfl d hd.stored current List.mem_cons_self
    rw [assures_requireCredential hd.stored]
    cases hagrees : agrees current with
    | false =>
      rw [hagrees] at haccepts
      rw [assures_demand_false haccepts]
      simp only [Operation.refusal, hagrees, Option.isNone_some] at hr
      exact congrArg Except.error (Option.some.inj hr)
    | true =>
      rw [hagrees] at haccepts
      simp only [Operation.refusal, hagrees, Option.isNone_some] at hr
      by_cases hp : password = ""
      · rw [hp, assures_demand haccepts, assures_newCredential_empty]
        simp only [hp] at hr
        exact congrArg Except.error (Option.some.inj hr)
      · simp [hp] at hr

/-- All that sealing a phrase does before it writes. -/
def sealing (owner phrase password : String) : Action SealedPhrase := do
  if owner = "" then throw (.invalidOwner owner)
  if isBlank phrase then throw (.input .emptyPhrase)
  exclusive
  let c ← requireCredential
  demand c password
  if (← fetch (Key.phrase owner)).isSome then throw (.phraseExists owner)
  sealPhrase owner phrase c password

omit hv in
theorem sealFor_eq (owner phrase password : String) :
    sealFor owner phrase password = (do
      let p ← sealing owner phrase password
      savePhrase p
      report (.phraseSealed owner)
      return p) := by
  rw [sealFor, sealing]
  by_cases ho : owner = ""
  · rw [if_pos ho, if_pos ho]
    rfl
  rw [if_neg ho, if_neg ho]
  by_cases hb : isBlank phrase
  · rw [if_pos hb, if_pos hb]
    rfl
  rw [if_neg hb, if_neg hb]
  simp only [bind_assoc]
  refine bind_congr fun _ => bind_congr fun c => bind_congr fun _ => bind_congr fun v => ?_
  split <;> rfl

theorem assures_sealing {owner phrase password : String}
    (hj : (Operation.sealFor owner phrase password).Judged agrees s.store v) :
    Assures False (fun _ => False) (sealing owner phrase password) (fun r t =>
      match (Operation.sealFor owner phrase password).refusal agrees v with
      | some fault => r = .error fault
      | none => t.store = s.store ∧ owner ≠ "" ∧ ∃ c d, v = some c ∧ Contains s.store d c ∧
        owner ∉ c.phrases ∧ r = .ok (freshPhrase s.entropy owner phrase (d.cipherKey c.password))) s := by
  rw [sealing, Operation.refusal]
  by_cases ho : owner = ""
  · rw [if_pos ho, if_pos ho, assures_throw_bind]
  rw [if_neg ho, if_neg ho]
  by_cases hblank : isBlank phrase
  · rw [if_pos hblank, if_pos hblank, assures_throw_bind]
  rw [if_neg hblank, if_neg hblank, exclusive, assures_settle_bind hv.settles.stagedCredential]
  cases v with
  | none =>
    rw [assures_requireCredential_none hv.credential_eq_none]
    rfl
  | some c =>
    obtain ⟨d, hd⟩ := hv
    obtain ⟨haccepts, hkey⟩ := hj c rfl d hd.stored password List.mem_cons_self
    rw [assures_requireCredential hd.stored]
    cases hagrees : agrees password with
    | false =>
      rw [hagrees] at haccepts
      rw [assures_demand_false haccepts]
      rfl
    | true =>
      rw [hagrees] at haccepts
      rw [assures_demand haccepts, assures_fetch_bind]
      simp only [Option.isNone_some, Bool.not_true, Bool.false_eq_true, if_false]
      by_cases hm : owner ∈ c.phrases
      · have hs : s.store[Key.phrase owner]?.isSome := by
          rw [Option.isSome_iff_ne_none]
          exact Records.getElem?_ne_none_iff.mpr ((hd.mem_phrase owner).mpr hm)
        rw [if_pos hs, if_pos (show owner ∈ phrasesOf (some c) from hm), assures_throw_bind]
      · have hs : ¬ s.store[Key.phrase owner]?.isSome := by
          rw [Option.isSome_iff_ne_none, not_not, Records.getElem?_eq_none_iff, hd.mem_phrase]
          exact hm
        rw [if_neg hs, if_neg (show owner ∉ phrasesOf (some c) from hm),
          ← bind_pure (sealPhrase owner phrase d password), assures_sealPhrase, assures_pure,
          hkey hagrees]
        exact ⟨rfl, ho, c, d, rfl, hd, hm, rfl⟩

end Refused

/-- Records that have room are settled as if there were always room. -/
theorem run_settle_of_filable {l : Session Limited} (h : Filable l.store.records)
    (hz : Resolves l.store.records z) :
    ∃ m, settle.run.run l = (.ok (), m) ∧ m.store.records = z := by
  have hassures : Assures False (fun r => Resolves r z ∧ Filable r) settle
      (Resolving False Filable z l.unlimited) l.unlimited :=
    assures_settle_of_resolves Filable.steady hz h
  have hend := Program.Assures.post_of_run_limited hassures fun r hr => hr.2.fits
  obtain ⟨hr, hm⟩ := hend.outcome.resolve_right fun hf => hf.1
  exact ⟨_, Prod.ext hr rfl, hm⟩

/-- Whatever comes of staging, settling has the last word on the records. -/
theorem run_conclude_of_settled {σ : Type} [RecordStore σ] {ps : List SealedPhrase}
    {s t u : Session σ} {r : Except Fault Unit} (hr : (stage next ps).run.run s = (r, t))
    (hu : settle.run.run t = (.ok (), u)) :
    ∃ w, (conclude next ps).run.run s = (r, w) ∧ w.store = u.store := by
  rw [conclude, run_bind_ok (run_attempt _ _), hr]
  have hend := run_cleanUp ps.length r t
  rw [hu] at hend
  exact ⟨_, Prod.ext hend.1 rfl, hend.2⟩

section Concluding
variable {l : Session Limited} {e : Entropy} {current password : String} {ps : List SealedPhrase}
variable (hl : Filable l.store.records) (hd : Contains l.store.records d c)
variable (hk : d.cipherKey current = d.cipherKey c.password)
variable (hps : Resealed l.store.records (d.cipherKey current)
  ((freshCredential e password).cipherKey password) (Records.owners l.store.records) ps)
include hl hd hk hps

/-- With room for every staged phrase, the phrases are under the new password. -/
theorem run_conclude_of_fits (hf : ∀ p ∈ ps, Fits (Key.stagedPhrase p.owner)) :
    ∃ m, (conclude (freshCredential e password) ps).run.run l = (.ok (), m) ∧
      Represents m.store.records (some { c with password }) := by
  have hstage := run_stage (freshCredential e password) ps l
  rw [if_pos hf] at hstage
  have hroom := (hl.staged (freshCredential e password) hf hps.sealed).insert (by decide)
    (.of_credential (freshCredential e password) (.inl rfl))
  obtain ⟨u, hu, hrotated⟩ := run_settle_of_filable
    (l := { l with store := ⟨(staged l.store.records (freshCredential e password) ps).insert
      Key.credential (freshCredential e password).write⟩ })
    hroom (settles_rotated hd.represents.settles hps.mem).resolves
  obtain ⟨m, hm, hstore⟩ := run_conclude_of_settled hstage hu
  refine ⟨m, hm, ?_⟩
  rw [hstore, hrotated]
  exact (hd.rotates hk hps.rotates).represents

/-- Without room for some staged phrase, the vault keeps what it had. -/
theorem run_conclude_of_not_fits (hf : ¬ ∀ p ∈ ps, Fits (Key.stagedPhrase p.owner))
    (hkey : freshCredential e password = d →
      (freshCredential e password).cipherKey password = d.cipherKey c.password) :
    ∃ m, (conclude (freshCredential e password) ps).run.run l = (.error (.io .nameTooLong), m) ∧
      Represents m.store.records (some c) := by
  have hstage := run_stage (freshCredential e password) ps l
  rw [if_neg hf] at hstage
  generalize hpre : (ps.takeWhile fun p => decide (Fits (Key.stagedPhrase p.owner))) = pre at hstage
  have hfits : ∀ p ∈ pre, Fits (Key.stagedPhrase p.owner) := by
    intro p hp
    rw [← hpre] at hp
    have hfit := List.mem_takeWhile_imp hp
    exact of_decide_eq_true hfit
  have htake : pre = ps.take pre.length := by
    rw [← List.prefix_iff_eq_take, ← hpre]
    exact List.takeWhile_prefix _
  have hreseal : Resealed l.store.records (d.cipherKey c.password)
      ((freshCredential e password).cipherKey password)
      ((Records.owners l.store.records).take pre.length) pre := by
    rw [← hk]
    conv_rhs => rw [htake]
    exact List.forall₂_take _ hps
  have hroom := hl.staged (freshCredential e password) hfits hreseal.sealed
  obtain ⟨z, hz⟩ := hroom.exists_resolves
  obtain ⟨u, hu, hsettled⟩ := run_settle_of_filable
    (l := { l with store := ⟨staged l.store.records (freshCredential e password) pre⟩ }) hroom hz
  obtain ⟨m, hm, hstore⟩ := run_conclude_of_settled hstage hu
  refine ⟨m, hm, ?_⟩
  rw [hstore, hsettled]
  exact (hd.of_resolves_staged hreseal hkey hz).represents

end Concluding

/-- A phrase that may be sealed is, if there is room for it. -/
theorem run_sealFor_of_sealing {l looked : Session Limited} {owner phrase password : String}
    {p : SealedPhrase} (h : (sealing owner phrase password).run.run l = (.ok p, looked)) :
    (sealFor owner phrase password).run.run l =
      if Fits (Key.phrase p.owner) then
        (.ok p, { looked with
          store := ⟨looked.store.records.insert (Key.phrase p.owner) p.write⟩
          log := looked.log ++ [.phraseSealed owner] })
      else (.error (.io .nameTooLong), looked) := by
  rw [sealFor_eq, run_bind_ok h, savePhrase]
  split
  · next hf =>
    rw [run_bind_ok (run_put_of_fits hf _ _)]
    rfl
  · next hf => rw [run_bind_error (run_put_of_not_fits hf _ _)]

end Action

namespace Filed
variable {s : Session FileStore} {l m : Session Limited} {α : Type} {act : Action α} {mid : α → Prop}
variable {op : Operation} {v : Option Contents} {g : α → Answer}
variable (h : Filed s l) (hg : Action.Guards act mid) (hr : op.refusal s.store.accepts v = none)
include h hg hr

theorem ends_of_run {a : α} (hrun : act.run.run l = (.ok a, m))
    (ha : op.Answers s.store.accepts v (g a)) (hm : Represents m.store.records (op.effect v)) :
    op.Ends v s.store ((act.run.run s).1.map g) (act.run.run s).2.store := by
  obtain ⟨he, hl⟩ := Program.Guards.run_files hg h
  rw [hrun] at he hl
  rw [Operation.Ends, hr, he, ← Program.root_run act.run s]
  exact .inl ⟨g a, rfl, ha, hl.houses hm⟩

theorem ends_of_crowded (hrun : act.run.run l = (.error (.io .nameTooLong), m))
    (hc : op.Crowded v) (hm : Represents m.store.records v) :
    op.Ends v s.store ((act.run.run s).1.map g) (act.run.run s).2.store := by
  obtain ⟨he, hl⟩ := Program.Guards.run_files hg h
  rw [hrun] at he hl
  rw [Operation.Ends, hr, he, ← Program.root_run act.run s]
  exact .inr ⟨hc, rfl, hl.houses hm⟩

end Filed

namespace Houses
variable {root : Path} {v : Option Contents} {s : Session FileStore}

theorem ends_sealFor {owner phrase password : String} (h : Houses root s.store v)
    (hf : Fair s.store v [password]) :
    (Operation.sealFor owner phrase password).Ends v s.store
      (((sealFor owner phrase password).run.run s).1.map .record)
      ((sealFor owner phrase password).run.run s).2.store := by
  obtain ⟨l, hl, hv⟩ := h.exists_filed
  have hj : (Operation.sealFor owner phrase password).Judged s.store.accepts l.store.records v :=
    hl.judged hv hf
  have hsealing := assures_sealing (s := l.unlimited) hv hj
  have hguards := guards_sealFor owner phrase password
  cases hr : (Operation.sealFor owner phrase password).refusal s.store.accepts v with
  | some fault =>
    rw [hr] at hsealing
    refine hl.ends_of_refused hguards hr ?_
    rw [sealFor_eq]
    refine assures_bind (hsealing.mono (fun _ hz => hz) ?_)
    rintro r t rfl
    exact rfl
  | none =>
    rw [hr] at hsealing
    obtain ⟨hstore, ho, c, d, rfl, hd, hn, hp⟩ :=
      Program.Assures.post_of_run_limited hsealing fun _ => False.elim
    obtain ⟨looked, hlooked, hrecords⟩ : ∃ looked, (sealing owner phrase password).run.run l =
        (.ok (freshPhrase l.entropy owner phrase (d.cipherKey c.password)), looked) ∧
          looked.store.records = l.store.records := ⟨_, Prod.ext hp rfl, hstore⟩
    have hseal := run_sealFor_of_sealing hlooked
    by_cases hfits : Fits (Key.phrase owner)
    · have hopens := opens_freshPhrase l.entropy owner phrase (length_cipherKey d c.password)
      have hsealed := (hd.insert_phrase ho hn hopens).represents
      refine hl.ends_of_run hguards hr (hseal.trans (if_pos hfits)) ⟨_, rfl, rfl⟩ ?_
      rw [hrecords]
      exact hsealed
    · refine hl.ends_of_crowded hguards hr (hseal.trans (if_neg hfits)) hfits ?_
      rwa [hrecords]

theorem ends_changePassword {current password : String} (h : Houses root s.store v)
    (hf : Fair s.store v [current, password]) :
    (Operation.changePassword current password).Ends v s.store
      (((changePassword current password).run.run s).1.map fun _ => .done)
      ((changePassword current password).run.run s).2.store := by
  obtain ⟨l, hl, hv⟩ := h.exists_filed
  have hj : (Operation.changePassword current password).Judged s.store.accepts l.store.records v :=
    hl.judged hv (hf.mono (List.cons_subset_cons current (List.nil_subset _)))
  have hguards := guards_changePassword current password
  cases hr : (Operation.changePassword current password).refusal s.store.accepts v with
  | some fault =>
    exact hl.ends_of_refused hguards hr
      (assures_changePassword_of_refused (s := l.unlimited) hv hj hr)
  | none =>
    obtain ⟨c, rfl, hagrees, hp⟩ := Operation.changePassword_of_not_refused hr
    obtain ⟨d, hd⟩ := hv
    obtain ⟨haccepts, hkey⟩ := hj c rfl d hd.stored current List.mem_cons_self
    rw [hagrees] at haccepts
    have hk := hkey hagrees
    have hprepare : Action.Assures False (fun _ => False) (prepare current password) _ l.unlimited :=
      assures_prepare_of_rotatable hd.represents.settles.stagedCredential
        (hd.rotatable haccepts hk) hp
    obtain ⟨hstore, ps, hrun, hps⟩ :=
      Program.Assures.post_of_run_limited hprepare fun _ => False.elim
    obtain ⟨prepared, hprepared, hrecords⟩ : ∃ prepared, (prepare current password).run.run l =
        (.ok (freshCredential l.entropy password, ps), prepared) ∧
          prepared.store.records = l.store.records := ⟨_, Prod.ext hrun rfl, hstore⟩
    have hchange : (changePassword current password).run.run l =
        (conclude (freshCredential l.entropy password) ps).run.run prepared := by
      rw [changePassword_eq, run_bind_ok hprepared]
    have hfilable : Filable prepared.store.records := hrecords ▸ hl.filable
    have hcontains : Contains prepared.store.records d c := hrecords ▸ hd
    have hresealed : Resealed prepared.store.records (d.cipherKey current)
        ((freshCredential l.entropy password).cipherKey password)
        (Records.owners prepared.store.records) ps := hrecords ▸ hps
    by_cases hfits : ∀ p ∈ ps, Fits (Key.stagedPhrase p.owner)
    · obtain ⟨m, hm, hnew⟩ := run_conclude_of_fits hfilable hcontains hk hresealed hfits
      exact hl.ends_of_run hguards hr (hchange.trans hm) rfl hnew
    · have hcrowded : ∃ owner ∈ c.phrases, ¬ Fits (Key.stagedPhrase owner) := by
        simp only [not_forall] at hfits
        obtain ⟨p, hmem, hn⟩ := hfits
        exact ⟨p.owner, (hcontains.mem_phrase _).mp (hresealed.mem p hmem), hn⟩
      -- the credential made by chance is the stored one only if that accepts the new password
      have hkey : freshCredential l.entropy password = d →
          (freshCredential l.entropy password).cipherKey password = d.cipherKey c.password := by
        rintro rfl
        refine hf c rfl _ ((FileStore.stored?_eq_some hl.holds).mpr hd.stored) password ?_ ?_
        · exact List.mem_cons_of_mem _ List.mem_cons_self
        · exact Credential.accepts_create_of_normalize_eq rfl _ _
      obtain ⟨m, hm, hold⟩ := run_conclude_of_not_fits hfilable hcontains hk hresealed hfits hkey
      exact hl.ends_of_crowded hguards hr (hchange.trans hm) hcrowded hold

/-- Sealing for an owner that is minted is sealing for that owner. -/
theorem ends_sealNew {phrase password : String} (h : Houses root s.store v)
    (hf : Fair s.store v [password]) :
    (Operation.sealFor (s.ids.headD "") phrase password).Ends v s.store
      (((sealNew phrase password).run.run s).1.map .record)
      ((sealNew phrase password).run.run s).2.store :=
  ends_sealFor (s := { s with ids := s.ids.tail }) h hf

end Houses
end PhraseVault.Vault
