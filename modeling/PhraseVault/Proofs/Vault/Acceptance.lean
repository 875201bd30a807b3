import PhraseVault.Proofs.Password
import PhraseVault.Proofs.Vault.Filing
import PhraseVault.Proofs.Vault.Reading

/-!
# Which passwords a new vault accepts

A vault accepts what derives the same bytes as the password that has been set. Key stretching cannot
tell some passwords apart, so more than the password and its spellings is accepted: zeros at the end
of a password do not count, and the empty text may stand for a password of zeros.
-/
namespace PhraseVault.Vault
open Vault.Action

/-- The salt that the next random bytes make. -/
def freshSalt (e : Entropy) : Bytes := Utf8.encode (Entropy.saltOf (e.peek Entropy.saltLength))

theorem accepts_freshCredential (e : Entropy) (password candidate : String) :
    (freshCredential e password).accepts candidate =
      .ok (decide (Password.derive candidate (freshSalt e) = Password.derive password (freshSalt e))) :=
  Credential.accepts_create password _ _ candidate

variable {s : Session Records} {password : String}

/-- Candidates are held against a first password by what the two derive. -/
theorem exists_run_setPassword_of_empty (hs : s.store = ∅) (hp : password ≠ "") :
    ∃ t, (setPassword password).run.run s = (.ok (), t) ∧
      ∀ candidate, ((verifyPassword candidate).run.run t).1 =
        .ok (decide (Password.derive candidate (freshSalt s.entropy) =
          Password.derive password (freshSalt s.entropy))) := by
  obtain ⟨hr, hstore, -⟩ := Program.post_of_run_records (assures_setPassword_of_empty hs hp)
  refine ⟨_, Prod.ext hr rfl, fun candidate => run_verifyPassword_of_stored ?_
    ⟨_, ?_, Credential.read_write _⟩ (accepts_freshCredential _ _ _)⟩
  · rw [hstore, Records.getElem?_insert, if_neg Key.credential_ne_stagedCredential, getElem?_empty]
  · rw [hstore, Records.getElem?_insert, if_pos rfl]

/-- After a first password has been set, candidates are accepted that derive what it derives. Those
are the candidates that key stretching cannot tell from the password, and no others unless it
collides. Among short forms that is up to zeros at the end, and up to nothing without such zeros. -/
theorem accepted_after_setPassword (hs : s.store = ∅) (hp : password ≠ "") :
    ∃ t, (setPassword password).run.run s = (.ok (), t) ∧
      ∀ candidate, ∃ verified, ((verifyPassword candidate).run.run t).1 = .ok verified ∧
        (verified = true ↔ Password.derive candidate (freshSalt s.entropy) =
          Password.derive password (freshSalt s.entropy)) ∧
        (verified = true ↔ Password.effective candidate = Password.effective password ∨
          Password.Collides (freshSalt s.entropy) candidate password) ∧
        (¬ Password.Collides (freshSalt s.entropy) candidate password →
          (Password.IsShort candidate → Password.IsShort password →
            (verified = true ↔ Password.significant candidate = Password.significant password)) ∧
          (Password.IsExact candidate → Password.IsExact password →
            (verified = true ↔ Unicode.normalize candidate = Unicode.normalize password))) := by
  obtain ⟨t, hset, hverify⟩ := exists_run_setPassword_of_empty hs hp
  refine ⟨t, hset, fun candidate => ⟨_, hverify candidate, ?_⟩⟩
  have hderive := Password.derive_eq_iff (p := candidate) (q := password) (freshSalt s.entropy)
  rw [decide_eq_true_iff]
  refine ⟨Iff.rfl, hderive, fun hc => ?_⟩
  rw [hderive, or_iff_left hc]
  refine ⟨Password.effective_eq_iff_of_isShort, fun hcandidate hpassword => ?_⟩
  rw [Password.effective_eq_iff_of_isShort hcandidate.short hpassword.short,
    hcandidate.significant_eq_iff hpassword]

/-- A zero at the end of a candidate does not count. -/
theorem accepted_after_setPassword_zero :
    ∃ s t : Session Records, s.store = ∅ ∧ (setPassword "a").run.run s = (.ok (), t) ∧
      ((verifyPassword "a").run.run t).1 = .ok true ∧
      ((verifyPassword "a\x00").run.run t).1 = .ok true := by
  have hshort : Password.IsShort "a" ∧ Password.IsShort "a\x00" := by
    constructor <;> unfold Password.IsShort <;> decide
  have hexact : Password.IsExact "a" := ⟨hshort.1, by decide⟩
  have hsame : Password.significant "a\x00" = Password.significant "a" := by decide
  have heffective := (Password.effective_eq_iff_of_isShort hshort.2 hshort.1).mpr hsame
  obtain ⟨t, hset, hverify⟩ := accepted_after_setPassword
    (s := ⟨∅, ⟨fun _ => 0, 0⟩, [], []⟩) rfl (by decide : "a" ≠ "")
  obtain ⟨first, hfirst, -, -, hf⟩ := hverify "a"
  obtain ⟨second, hsecond, -, -, hs⟩ := hverify "a\x00"
  obtain rfl := ((hf fun hc => hc.1 rfl).2 hexact hexact).mpr rfl
  obtain rfl := ((hs fun hc => hc.1 heffective).1 hshort.2 hshort.1).mpr hsame
  exact ⟨_, t, rfl, hset, hfirst, hsecond⟩

/-- A vault whose password is a zero accepts the empty candidate, which is no spelling of it. -/
theorem exists_empty_accepted :
    ∃ s t : Session Records, s = ⟨∅, .seeded 0, [], []⟩ ∧
      (setPassword "\x00").run.run s = (.ok (), t) ∧
      ((verifyPassword "").run.run t).1 = .ok true ∧
      Unicode.normalize "" ≠ Unicode.normalize "\x00" := by
  have hshort : Password.IsShort "" ∧ Password.IsShort "\x00" := by
    constructor <;> unfold Password.IsShort <;> decide
  have hsame : Password.significant "" = Password.significant "\x00" := by decide
  have hderive := Password.derive_eq_of_effective_eq
    ((Password.effective_eq_iff_of_isShort hshort.1 hshort.2).mpr hsame)
  obtain ⟨t, hset, hverify⟩ := exists_run_setPassword_of_empty (s := ⟨∅, .seeded 0, [], []⟩) rfl
    (by decide : "\x00" ≠ "")
  refine ⟨_, t, rfl, hset, ?_, by decide⟩
  rw [hverify, hderive, decide_eq_true rfl]

end PhraseVault.Vault
