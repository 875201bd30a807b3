import PhraseVault.Proofs.Vault.Restart

/-!
# What is stored is read back

Records read back as they were written, so records are equal exactly if they are written alike. Settling
relies on that: a rotation took effect if the stored credential is written like the staged one.
-/
namespace PhraseVault

theorem Credential.write_inj {c d : Credential} : c.write = d.write ↔ c = d :=
  ⟨Credential.write_injective, congrArg Credential.write⟩

theorem SealedPhrase.write_inj {p q : SealedPhrase} (hp : p.iv.sigBytes < Json.wordLimit)
    (hq : q.iv.sigBytes < Json.wordLimit) : p.write = q.write ↔ p = q := by
  constructor
  · intro h
    have hr := SealedPhrase.read_write hp
    rw [h, SealedPhrase.read_write hq] at hr
    exact (Except.ok.inj hr).symm
  · exact congrArg SealedPhrase.write

namespace Vault
open Vault.Action
variable {s : Session Records} {c d : Credential}

theorem run_loadCredential_of_saved (s : Session Records) (c : Credential) :
    ((saveCredential c >>= fun _ => loadCredential).run.run s).1 = .ok (some c) := by
  have h : Assures False (fun _ => True) (saveCredential c >>= fun _ => loadCredential)
      (fun r _ => r = .ok (some c)) s := by
    rw [saveCredential, assures_put_bind, ← bind_pure loadCredential, assures_loadCredential
      ⟨_, by rw [Records.getElem?_insert, if_pos rfl], c.read_write⟩, assures_pure]
    exact ⟨False.elim, trivial, rfl⟩
  exact Program.post_of_run_records h

theorem run_loadPhrase_of_saved (s : Session Records) {p : SealedPhrase}
    (hp : p.iv.sigBytes < Json.wordLimit) :
    ((savePhrase p >>= fun _ => loadPhrase p.owner).run.run s).1 = .ok (some p) := by
  have h : Assures False (fun _ => True) (savePhrase p >>= fun _ => loadPhrase p.owner)
      (fun r _ => r = .ok (some p)) s := by
    rw [savePhrase, assures_put_bind, loadPhrase, assures_fetch_bind, Records.getElem?_insert,
      if_pos rfl]
    simp only []
    rw [assures_readPhrase (SealedPhrase.read_write hp), if_neg (not_not_intro rfl)]
    exact ⟨False.elim, trivial, rfl⟩
  exact Program.post_of_run_records h

/-- Settling puts the staged phrases in place if the credentials are written alike. -/
theorem exists_run_settle_of_written (hc : s.store[Key.credential]? = some c.write)
    (hd : s.store[Key.stagedCredential]? = some d.write) :
    ∃ t, settle.run.run s = (.ok (), t) ∧ ∀ owner, t.store[Key.phrase owner]? =
      if c.write = d.write then s.store[Key.stagedPhrase owner]?.or s.store[Key.phrase owner]?
      else s.store[Key.phrase owner]? := by
  have hstored : Stored s.store c := ⟨_, hc, c.read_write⟩
  have hstaged : Staged s.store d := ⟨_, hd, d.read_write⟩
  obtain ⟨y, hy⟩ := exists_resolves fun _ => ⟨⟨d, hstaged⟩, fun _ => ⟨c, hstored⟩⟩
  obtain ⟨hr, ht⟩ := hy.run_settle rfl
  have hresolved := hy.resolved hstaged.mem
  refine ⟨_, Prod.ext hr rfl, fun owner => ?_⟩
  have hiff : Committed s.store ↔ c.write = d.write :=
    (committed_iff hstaged hstored).trans Credential.write_inj.symm
  rw [ht]
  by_cases h : c.write = d.write
  · rw [if_pos h, hresolved.phrase_of_committed (hiff.mpr h)]
  · rw [if_neg h, hresolved.phrase_of_not_committed (mt hiff.mp h)]

/-- What has been written or saved is read or loaded, and records are equal exactly if they are
written alike, which is what settling decides by. -/
theorem records_read_back :
    (∀ c : Credential, Credential.read c.write = .ok c) ∧
    (∀ p : SealedPhrase, p.iv.sigBytes < Json.wordLimit → SealedPhrase.read p.write = .ok p) ∧
    (∀ c d : Credential, c.write = d.write ↔ c = d) ∧
    (∀ p q : SealedPhrase, p.iv.sigBytes < Json.wordLimit → q.iv.sigBytes < Json.wordLimit →
      (p.write = q.write ↔ p = q)) ∧
    (∀ (s : Session Records) (c : Credential),
      ((saveCredential c >>= fun _ => loadCredential).run.run s).1 = .ok (some c)) ∧
    (∀ (s : Session Records) (p : SealedPhrase), p.iv.sigBytes < Json.wordLimit →
      ((savePhrase p >>= fun _ => loadPhrase p.owner).run.run s).1 = .ok (some p)) ∧
    ∀ (s : Session Records) (c d : Credential), s.store[Key.credential]? = some c.write →
      s.store[Key.stagedCredential]? = some d.write →
      ∃ t, settle.run.run s = (.ok (), t) ∧ ∀ owner, t.store[Key.phrase owner]? =
        if c.write = d.write then s.store[Key.stagedPhrase owner]?.or s.store[Key.phrase owner]?
        else s.store[Key.phrase owner]? := by
  refine ⟨Credential.read_write, fun _ => SealedPhrase.read_write, fun _ _ => Credential.write_inj,
    fun _ _ => SealedPhrase.write_inj, run_loadCredential_of_saved, ?_, ?_⟩
  · exact fun s _ => run_loadPhrase_of_saved s
  · exact fun _ _ _ => exists_run_settle_of_written

/-- A record with quotes, controls and characters of four bytes, and numbers at their limits. -/
def awkward : SealedPhrase :=
  ⟨"\"\\\x01\té😀", "", ⟨[Int32.minValue, -1, Int32.maxValue], 18446744073709551615⟩⟩

theorem records_read_back_awkward :
    SealedPhrase.read awkward.write = .ok awkward ∧
    (awkward.write = { awkward with cipher := "\x7f" }.write ↔
      awkward = { awkward with cipher := "\x7f" }) ∧
    ((savePhrase awkward >>= fun _ => loadPhrase awkward.owner).run.run
      (⟨∅, ⟨fun _ => 0, 0⟩, [], []⟩ : Session Records)).1 = .ok (some awkward) ∧
    ∃ t : Session Records, settle.run.run
      ⟨halfway ⟨"", "", ""⟩ "o" [1], ⟨fun _ => 0, 0⟩, [], []⟩ = (.ok (), t) ∧ t.store[Key.phrase "o"]? = some [1] := by
  obtain ⟨-, hread, -, hinj, -, hload, hsettle⟩ := records_read_back
  have hsize : awkward.iv.sigBytes < Json.wordLimit := by decide
  refine ⟨hread _ hsize, hinj _ _ hsize hsize, hload _ _ hsize, ?_⟩
  obtain ⟨t, ht, hphrases⟩ :=
    hsettle ⟨halfway ⟨"", "", ""⟩ "o" [1], ⟨fun _ => 0, 0⟩, [], []⟩ _ _
      (halfway_credential _ _ _) (halfway_stagedCredential _ _ _)
  refine ⟨t, ht, ?_⟩
  rw [hphrases, if_pos rfl, halfway_stagedPhrase, Option.some_or]

end Vault
end PhraseVault
