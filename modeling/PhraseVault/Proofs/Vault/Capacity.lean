import PhraseVault.Proofs.Vault.Filing
import Mathlib.Data.List.TakeWhile

/-!
# Which vaults over files can change their password

A phrase is staged under a longer key than the one it is kept under, and a directory takes keys up to
some length. So there are owners for whom a phrase can be sealed but not staged, and a vault that has a
phrase for one of them cannot change its password.
-/
namespace PhraseVault.Vault
open Vault.Action
variable {y : Records} {old : Credential}

theorem Resealed.map_owner {oldKey newKey : Bytes} {owners : List String} {ps : List SealedPhrase}
    (h : Resealed y oldKey newKey owners ps) : ps.map SealedPhrase.owner = owners := by
  induction h with
  | nil => rfl
  | cons hp _ ih => rw [List.map_cons, hp.1, ih]

namespace Action
variable {s : Session Records}

theorem assures_prepare (hs : Filable s.store) (h : Resolves s.store y) {current password : String}
    (hr : Rotatable y old current) (hp : password ≠ "") :
    Assures False Filable (prepare current password) (fun r _ => ∃ next ps,
      r = .ok (next, ps) ∧ ps.map SealedPhrase.owner = Records.owners y) s := by
  refine assures_resolving_bind (assures_settle_of_resolves Filable.steady h hs) fun log => ?_
  rw [assures_requireCredential hr.stored, assures_demand hr.accepted, assures_newCredential hp,
    assures_sealedOwners]
  refine assures_resealAll hr.opens fun ps entropy hps => ?_
  exact (assures_pure _).mpr ⟨_, ps, rfl, hps.map_owner⟩

/-- What becomes of a rotation is only reported: the answer is that of its staging, and settling has
the last word on the records. -/
theorem run_cleanUp {σ : Type} [RecordStore σ] (count : ℕ) (r : Except Fault Unit) (s : Session σ) :
    ((cleanUp count r).run.run s).1 = r ∧
      ((cleanUp count r).run.run s).2.store = (settle.run.run s).2.store := by
  cases r with
  | error fault =>
    rw [cleanUp, run_bind_ok (run_attempt _ _)]
    cases (settle.run.run s).1 <;> exact ⟨rfl, rfl⟩
  | ok _ =>
    rw [cleanUp, run_bind_ok (run_attempt _ _)]
    cases (settle.run.run s).1 <;> exact ⟨rfl, rfl⟩

/-- A change of password comes out as its staging does. -/
theorem run_conclude {σ : Type} [RecordStore σ] (next : Credential) (ps : List SealedPhrase)
    (s : Session σ) :
    ((conclude next ps).run.run s).1 = ((stage next ps).run.run s).1 := by
  rw [conclude, run_bind_ok (run_attempt _ _)]
  exact (run_cleanUp _ _ _).1

section Staging

theorem run_put_of_fits {key : String} (hf : Fits key) (value : Bytes) (l : Session Limited) :
    (put key value).run.run l =
      (.ok (), { l with store := ⟨l.store.records.insert key value⟩ }) := by
  simp only [put, onStore, Program.bind, Program.run, ExceptT.run_mk, RecordStore.set, if_pos hf]
  rfl

theorem run_put_of_not_fits {key : String} (hf : ¬ Fits key) (value : Bytes) (l : Session Limited) :
    (put key value).run.run l = (.error (.io .nameTooLong), l) := by
  simp only [put, onStore, Program.bind, Program.run, ExceptT.run_mk, RecordStore.set, if_neg hf]
  rfl

/-- Phrases are staged if all their keys fit; the first that does not stops the staging. -/
theorem run_stagePhrases (ps : List SealedPhrase) (l : Session Limited) :
    (stagePhrases ps).run.run l =
      (if ∀ p ∈ ps, Fits (Key.stagedPhrase p.owner) then .ok () else .error (.io .nameTooLong),
        { l with store := ⟨putAll Key.stagedPhrase
          (ps.takeWhile fun p => Fits (Key.stagedPhrase p.owner)) l.store.records⟩ }) := by
  induction ps generalizing l with
  | nil => rfl
  | cons p ps ih =>
    rw [stagePhrases]
    by_cases hf : Fits (Key.stagedPhrase p.owner)
    · rw [run_bind_ok (run_put_of_fits hf _ _), ih]
      simp only [List.forall_mem_cons, List.takeWhile_cons, hf, true_and, decide_true, if_true]
      rfl
    · rw [run_bind_error (run_put_of_not_fits hf _ _)]
      simp only [List.forall_mem_cons, List.takeWhile_cons, hf, false_and, decide_false, if_false]
      rfl

/-- What is staged of a rotation, and what comes of it. -/
theorem run_stage (next : Credential) (ps : List SealedPhrase) (l : Session Limited) :
    (stage next ps).run.run l =
      if ∀ p ∈ ps, Fits (Key.stagedPhrase p.owner) then
        (.ok (), { l with
          store := ⟨(staged l.store.records next ps).insert Key.credential next.write⟩ })
      else (.error (.io .nameTooLong), { l with
        store := ⟨staged l.store.records next
          (ps.takeWhile fun p => Fits (Key.stagedPhrase p.owner))⟩ }) := by
  rw [stage, run_bind_ok (run_put_of_fits (by decide) _ _)]
  have hstaged := run_stagePhrases ps
    { l with store := ⟨l.store.records.insert Key.stagedCredential next.write⟩ }
  split
  · next hf =>
    have hall : (ps.takeWhile fun p => Fits (Key.stagedPhrase p.owner)) = ps :=
      List.takeWhile_eq_self_iff.mpr fun p hp => decide_eq_true (hf p hp)
    rw [if_pos hf, hall] at hstaged
    rw [run_bind_ok hstaged, saveCredential, run_put_of_fits (by decide)]
    rfl
  · next hf =>
    rw [if_neg hf] at hstaged
    rw [run_bind_error hstaged]
    rfl

end Staging

end Action

namespace Filed
variable {s : Session FileStore} {l : Session Limited}

/-- A change of password that may be made is made if there is room for every phrase to be staged. -/
theorem run_changePassword (h : Filed s l) (hy : Resolves l.store.records y)
    {current password : String} (hr : Rotatable y old current) (hp : password ≠ "") :
    ((changePassword current password).run.run s).1 =
      if ∀ owner ∈ Records.owners y, (Utf8.encode owner).length ≤ 110 then .ok ()
      else .error (.io .nameTooLong) := by
  have hprepare := Program.Assures.post_of_run_limited
    (assures_prepare (s := l.unlimited) h.filable hy hr hp) fun r hr => hr.fits
  obtain ⟨next, ps, hrun, hps⟩ := hprepare
  rw [(Program.Guards.run_files (guards_changePassword current password) h).1, changePassword_eq,
    run_bind_ok (Prod.ext hrun rfl), run_conclude, run_stage, apply_ite Prod.fst, ← hps]
  simp only [List.forall_mem_map, fits_stagedPhrase]

end Filed

/-- Over files a vault changes its password, given the old one and a new one that is not empty, if no
owner that it has a phrase for takes more than 110 bytes, and otherwise says that a name is too long. -/
theorem changePassword_of_reached {s : Session FileStore} (h : Reached s)
    {current password : String} (hv : ((verifyPassword current).run.run s).1 = .ok true)
    (hp : password ≠ "") :
    ∃ sealedFor, (owners.run.run s).1 = .ok sealedFor ∧
      ((changePassword current password).run.run s).1 =
        if ∀ owner ∈ sealedFor, (Utf8.encode owner).length ≤ 110 then .ok ()
        else .error (.io .nameTooLong) := by
  obtain ⟨l, hl⟩ := h.exists_filed
  obtain ⟨y, hy⟩ := hl.filable.exists_resolves
  have hfilable := hy.keeps Filable.steady hl.filable
  obtain ⟨c, hc, ha⟩ := (hl.run_verifyPassword hy current).mp hv
  -- the password may derive another key than the phrases were sealed under: they open with any key
  have hr : Rotatable y c current := by
    refine ⟨hc, ha, fun owner ho => ?_⟩
    exact hfilable.orderly.exists_opens (Records.mem_owners.mp ho) (length_cipherKey c current)
  exact ⟨_, hl.run_owners hy, hl.run_changePassword hy hr hp⟩

/-- A vault over files in which a phrase has been sealed for an owner. -/
theorem exists_sealed {owner : String} (ho : owner ≠ "") (hf : Fits (Key.phrase owner)) :
    ∃ s p t l c, Reached s ∧
      (Operation.sealFor owner "word" "a").program.run.run s = (.ok (.record p), t) ∧ Filed t l ∧
      Resolves l.store.records l.store.records ∧ Rotatable l.store.records c "a" ∧
      Records.owners l.store.records = [owner] := by
  obtain ⟨s, l, salt, keySalt, hs, hl, hstore⟩ := exists_reached (by decide : "a" ≠ "")
  have hstored : Stored l.store.records (.create "a" salt keySalt) := by
    refine ⟨_, ?_, Credential.read_write _⟩
    rw [hstore, Records.getElem?_insert, if_pos rfl]
  have hkey : ∀ key, key ∈ l.store.records ↔ Key.credential = key := by
    intro key
    simp [hstore, Std.ExtTreeMap.mem_insert]
  have hsettled : Resolves l.store.records l.store.records := .refl (by simp [hkey])
  have hseal : Action.Assures False Filable (Operation.sealFor owner "word" "a").program
      (fun r t => (∃ p, r = .ok (.record p)) ∧
        t.store = single l.entropy (.create "a" salt keySalt) "a" owner "word") l.unlimited := by
    refine assures_map _ ((assures_sealFor hl.filable hsettled ho (by decide) hstored
      (Credential.accepts_create_of_normalize_eq rfl salt keySalt) (by simp [hkey]) hf).mono
      (fun _ hz => hz) ?_)
    rintro r t ⟨rfl, ht, -⟩
    refine ⟨⟨_, rfl⟩, ?_⟩
    rw [ht, single, ← hstore]
    rfl
  obtain ⟨l', hl', ⟨p, hp⟩, hstore'⟩ := hl.post_of_run (Operation.guards_program _) hseal
  have hsingle : l'.store.records = single l.entropy (.create "a" salt keySalt) "a" owner "word" :=
    hstore'
  refine ⟨s, p, _, l', .create "a" salt keySalt, hs, Prod.ext hp rfl, hl', ?_, ?_, ?_⟩
  · refine .refl ?_
    simp [hsingle, mem_single]
  · rw [hsingle]
    exact rotatable_single _ _ _ _ _ _
  · refine (Records.pairwise_owners _).eq_of_mem_iff (List.pairwise_singleton _ _) fun o => ?_
    rw [Records.mem_owners, hsingle, mem_single]
    simp [eq_comm]

/-- A vault that has changed its password, with a phrase for a short owner. -/
theorem changePassword_of_reached_short :
    ∃ s, Reached s ∧ ((verifyPassword "a").run.run s).1 = .ok true ∧
      (owners.run.run s).1 = .ok ["o"] ∧ ((changePassword "a" "b").run.run s).1 = .ok () := by
  obtain ⟨s, p, t, l, c, hs, hrun, hl, hy, hr, howners⟩ :=
    exists_sealed (by decide : "o" ≠ "") (by decide)
  have ht : Reached t := by
    have hrequest := hs.request (.perform (.sealFor "o" "word" "a"))
    rwa [Request.program, hrun] at hrequest
  have hv := (hl.run_verifyPassword hy "a").mpr ⟨c, hr.stored, hr.accepted⟩
  have hlisted := hl.run_owners hy
  rw [howners] at hlisted
  obtain ⟨sealedFor, hsealed, hchange⟩ := changePassword_of_reached ht hv (by decide : "b" ≠ "")
  obtain rfl := Except.ok.inj (hlisted.symm.trans hsealed)
  exact ⟨t, ht, hv, hlisted, by rw [hchange, if_pos (by decide)]⟩

/-- An owner of 111 bytes. -/
def long : String := String.ofList (List.replicate 111 'x')

/-- A phrase is sealed for an owner, and then the password cannot be changed. -/
theorem exists_sealed_not_rotatable :
    ∃ s p t, Reached s ∧
      (Operation.sealFor long "word" "a").program.run.run s = (.ok (.record p), t) ∧
      ((verifyPassword "a").run.run t).1 = .ok true ∧
      ((changePassword "a" "b").run.run t).1 = .error (.io .nameTooLong) := by
  have hlong : (Utf8.encode long).length = 111 := by decide
  have hne : long ≠ "" := by decide
  have hfits : Fits (Key.phrase long) := by
    rw [fits_phrase, hlong]
    decide
  obtain ⟨s, p, t, l, c, hs, hrun, hl, hy, hr, howners⟩ := exists_sealed hne hfits
  have hv := (hl.run_verifyPassword hy "a").mpr ⟨c, hr.stored, hr.accepted⟩
  refine ⟨s, p, t, hs, hrun, hv, ?_⟩
  rw [hl.run_changePassword hy hr (by decide), howners, if_neg]
  simp [hlong]

end PhraseVault.Vault
