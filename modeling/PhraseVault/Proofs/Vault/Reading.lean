import PhraseVault.Proofs.Vault.Settling

/-!
# Reading settled records
-/
namespace PhraseVault.Vault.Action
variable {fails : Prop} {ok : Records → Prop} {s : Session Records}

theorem assures_owners {post : Except Fault (List String) → Session Records → Prop}
    (hs : s.store[Key.stagedCredential]? = none) :
    Assures fails ok owners post s ↔ post (.ok (Records.owners s.store)) s := by
  rw [owners, assures_shared_bind hs]
  exact Iff.rfl

theorem run_owners (hs : s.store[Key.stagedCredential]? = none) :
    (owners.run.run s).1 = .ok (Records.owners s.store) := by
  have h : Assures False (fun _ => True) owners (fun r _ => r = .ok (Records.owners s.store)) s :=
    (assures_owners hs).mpr rfl
  exact Program.post_of_run_records h

/-- A candidate is verified as the stored credential accepts it. -/
theorem run_verifyPassword_of_stored {c : Credential} {candidate : String} {verified : Bool}
    (hs : s.store[Key.stagedCredential]? = none) (hc : Stored s.store c)
    (ha : c.accepts candidate = .ok verified) :
    ((verifyPassword candidate).run.run s).1 = .ok verified := by
  have h : Assures False (fun _ => True) (verifyPassword candidate) (fun r _ => r = .ok verified) s := by
    rw [verifyPassword, assures_shared_bind hs, assures_requireCredential hc, assures_matching ha]
    cases verified <;> rfl
  exact Program.post_of_run_records h

section Reveal
variable {post : Except Fault String → Session Records → Prop} {c : Credential}
variable {owner password : String}

theorem assures_reveal (hs : s.store[Key.stagedCredential]? = none) (hc : Stored s.store c)
    {bytes : Bytes} {text : String} (hb : s.store[Key.phrase owner]? = some bytes)
    (ho : Opens bytes owner (c.cipherKey password) text) :
    Assures fails ok (reveal owner password) post s ↔ post (.ok text) s := by
  rw [reveal, assures_shared_bind hs, assures_requireCredential hc,
    ← bind_pure (requirePhrase owner >>= _), bind_assoc, assures_openPhrase hb ho]
  exact Iff.rfl

theorem assures_reveal_unsealed (hs : s.store[Key.stagedCredential]? = none)
    (hc : Stored s.store c) (hb : s.store[Key.phrase owner]? = none) :
    Assures fails ok (reveal owner password) post s ↔ post (.error (.phraseNotFound owner)) s := by
  rw [reveal, assures_shared_bind hs, assures_requireCredential hc, assures_requirePhrase_none hb]

theorem run_reveal (hs : s.store[Key.stagedCredential]? = none) (hc : Stored s.store c)
    {bytes : Bytes} {text : String} (hb : s.store[Key.phrase owner]? = some bytes)
    (ho : Opens bytes owner (c.cipherKey password) text) :
    ((reveal owner password).run.run s).1 = .ok text := by
  have h : Assures False (fun _ => True) (reveal owner password) (fun r _ => r = .ok text) s :=
    (assures_reveal hs hc hb ho).mpr rfl
  exact Program.post_of_run_records h

theorem run_reveal_unsealed (hs : s.store[Key.stagedCredential]? = none) (hc : Stored s.store c)
    (hb : s.store[Key.phrase owner]? = none) :
    ((reveal owner password).run.run s).1 = .error (.phraseNotFound owner) := by
  have h : Assures False (fun _ => True) (reveal owner password)
      (fun r _ => r = .error (.phraseNotFound owner)) s :=
    (assures_reveal_unsealed hs hc hb).mpr rfl
  exact Program.post_of_run_records h

end Reveal
end PhraseVault.Vault.Action
