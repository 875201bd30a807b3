import PhraseVault.Proofs.Vault.Refusal

/-!
# What wiping leads back to

A wipe takes away the credential and every phrase, whatever the records hold, once the leftover
rotation has been settled. A staged rotation that cannot be settled stops it before it takes anything
away.
-/
namespace PhraseVault.Vault
variable {x y z : Records}

/-- The records without the phrases of some owners. -/
def withoutPhrases (owners : List String) (r : Records) : Records :=
  owners.foldl (fun r owner => r.erase (Key.phrase owner)) r

/-- The records without the credential and without any phrase. -/
def emptied (r : Records) : Records :=
  (withoutPhrases (Records.owners r) r).erase Key.credential

/-- What a wipe makes of records, with a rotation staged or not. -/
structure Wiped (x z : Records) : Prop where
  credential : z[Key.credential]? = none
  phrase : ∀ owner, z[Key.phrase owner]? = none
  stagedCredential : z[Key.stagedCredential]? = none
  stagedPhrase_of_staged : Key.stagedCredential ∈ x →
    ∀ owner, z[Key.stagedPhrase owner]? = none
  stagedPhrase_of_unstaged : Key.stagedCredential ∉ x →
    ∀ owner, z[Key.stagedPhrase owner]? = x[Key.stagedPhrase owner]?
  foreign : ∀ key, Key.IsPlain key → key ≠ Key.credential → z[key]? = x[key]?

/-- A vault over the records is one without a password, and can be given one. -/
structure Vacant (z : Records) : Prop where
  state : ∀ s : Session Records, s.store = z → (state.run.run s).1 = .ok .uninitialized
  owners : ∀ s : Session Records, s.store = z → (Vault.owners.run.run s).1 = .ok []
  setPassword : ∀ (s : Session Records) (password : String), s.store = z → password ≠ "" →
    ((setPassword password).run.run s).1 = .ok ()

theorem getElem?_withoutPhrases_of_ne {key : String} (owners : List String) (r : Records)
    (h : ∀ owner ∈ owners, Key.phrase owner ≠ key) : (withoutPhrases owners r)[key]? = r[key]? := by
  induction owners generalizing r with
  | nil => rfl
  | cons owner owners ih =>
    obtain ⟨hne, hrest⟩ := List.forall_mem_cons.mp h
    rw [withoutPhrases, List.foldl_cons, ← withoutPhrases, ih _ hrest, Records.getElem?_erase,
      if_neg hne]

theorem getElem?_withoutPhrases {owner : String} {owners : List String} (r : Records)
    (h : owner ∈ owners) : (withoutPhrases owners r)[Key.phrase owner]? = none := by
  induction owners generalizing r with
  | nil => cases h
  | cons o owners ih =>
    rw [withoutPhrases, List.foldl_cons, ← withoutPhrases]
    by_cases hm : owner ∈ owners
    · exact ih _ hm
    · obtain rfl : owner = o := (List.mem_cons.mp h).resolve_right hm
      rw [getElem?_withoutPhrases_of_ne, Records.getElem?_erase, if_pos rfl]
      rintro o ho he
      exact hm (Key.phrase_inj.mp he ▸ ho)

theorem emptied_credential (r : Records) : (emptied r)[Key.credential]? = none := by
  rw [emptied, Records.getElem?_erase, if_pos rfl]

theorem emptied_phrase (r : Records) (owner : String) : (emptied r)[Key.phrase owner]? = none := by
  rw [emptied, Records.getElem?_erase, if_neg (Key.credential_ne_phrase owner)]
  by_cases hm : Key.phrase owner ∈ r
  · exact getElem?_withoutPhrases r (Records.mem_owners.mpr hm)
  · rw [getElem?_withoutPhrases_of_ne, Records.getElem?_eq_none_iff.mpr hm]
    rintro o ho he
    exact hm (he ▸ Records.mem_owners.mp ho)

theorem emptied_other {key : String} (r : Records) (hc : key ≠ Key.credential)
    (hp : ∀ owner, key ≠ Key.phrase owner) : (emptied r)[key]? = r[key]? := by
  rw [emptied, Records.getElem?_erase, if_neg hc.symm,
    getElem?_withoutPhrases_of_ne _ r fun owner _ => (hp owner).symm]

/-- A wipe empties what the records stand for. -/
theorem Resolves.wiped (h : Resolves x y) : Wiped x (emptied y) where
  credential := emptied_credential y
  phrase := emptied_phrase y
  stagedCredential := by
    rw [emptied_other y Key.stagedCredential_ne_credential Key.stagedCredential_ne_phrase,
      h.stagedCredential]
  stagedPhrase_of_staged hm owner := by
    rw [emptied_other y (Key.stagedPhrase_ne_credential owner) (Key.stagedPhrase_ne_phrase owner),
      (h.resolved hm).stagedPhrase]
  stagedPhrase_of_unstaged hm owner := by
    rw [emptied_other y (Key.stagedPhrase_ne_credential owner) (Key.stagedPhrase_ne_phrase owner),
      h.eq_of_unstaged hm]
  foreign key hk hc := by
    rw [emptied_other y hc hk.2.1]
    by_cases hm : Key.stagedCredential ∈ x
    · exact (h.resolved hm).plain key hk
    · rw [h.eq_of_unstaged hm]

theorem Wiped.owners_eq_nil (h : Wiped x z) : Records.owners z = [] := by
  rw [List.eq_nil_iff_forall_not_mem]
  intro owner ho
  exact Records.getElem?_eq_none_iff.mp (h.phrase owner) (Records.mem_owners.mp ho)

namespace Action
variable {β : Type} {s : Session Records}

theorem assures_deletePhrases_bind {post : Except Fault β → Session Records → Prop}
    (owners : List String) (f : Unit → Action β) :
    Assures False (fun _ => True) (deletePhrases owners >>= f) post s ↔
      Assures False (fun _ => True) (f ()) post
        { s with store := withoutPhrases owners s.store } := by
  induction owners generalizing s with
  | nil => exact Iff.rfl
  | cons owner owners ih =>
    rw [deletePhrases, bind_assoc, assures_erase_bind, ih]
    exact ⟨fun h => h.2.2, fun h => ⟨False.elim, trivial, h⟩⟩

/-- How a wipe ends: nothing that it takes away is left, or settling is blocked and nothing has been
changed. -/
def Wiping (x : Records) (r : Except Fault Unit) (t : Session Records) : Prop :=
  (r = .ok () ∧ ∃ y, Resolves x y ∧ t.store = emptied y) ∨
    ∃ fault, Blocked x fault ∧ r = .error (.malformed fault) ∧ t.store = x

theorem assures_wipe (s : Session Records) :
    Assures False (fun _ => True) wipe (Wiping s.store) s := by
  refine assures_bind ((opened_settle s).mono (fun _ hr => hr) ?_)
  rintro r t (⟨rfl, hy⟩ | ⟨fault, hblocked, rfl, ht⟩)
  · simp only [continued]
    rw [assures_sealedOwners, assures_deletePhrases_bind, assures_erase_bind, assures_report]
    exact ⟨False.elim, trivial, .inl ⟨rfl, t.store, hy, rfl⟩⟩
  · exact .inr ⟨fault, hblocked, rfl, ht⟩

end Action
open Vault.Action

/-- Nothing is staged, sealed or set, so a vault over the records is like a new one. -/
theorem Wiped.vacant (h : Wiped x z) : Vacant z where
  state := by
    rintro s rfl
    have hstate : Assures False (fun _ => True) state (fun r _ => r = .ok .uninitialized) s := by
      rw [state, assures_shared_bind h.stagedCredential, assures_loadCredential_none h.credential]
      rfl
    exact Program.post_of_run_records hstate
  owners := by
    rintro s rfl
    have howners : Assures False (fun _ => True) Vault.owners (fun r _ => r = .ok []) s := by
      rw [Vault.owners, assures_shared_bind h.stagedCredential, ← bind_pure sealedOwners,
        assures_sealedOwners, assures_pure, h.owners_eq_nil]
    exact Program.post_of_run_records howners
  setPassword := by
    rintro s password rfl hp
    have hset : Assures False (fun _ => True) (setPassword password) (fun r _ => r = .ok ()) s := by
      rw [setPassword, exclusive, settle, bind_assoc, assures_fetch_bind, h.stagedCredential]
      simp only [pure_bind]
      rw [assures_sealedOwners, h.owners_eq_nil, if_neg (not_not.mpr rfl),
        assures_loadCredential_none h.credential, assures_newCredential hp, saveCredential,
        assures_put_bind, assures_report]
      exact ⟨False.elim, trivial, rfl⟩
    exact Program.post_of_run_records hset

/-- Whatever the records hold, a wipe leads back to a vault without a password and leaves foreign
records alone, unless a staged rotation cannot be settled. Then it changes nothing. -/
theorem wipe_recovers_or_blocked (s : Session Records) :
    (∃ t, wipe.run.run s = (.ok (), t) ∧ (∀ fault, ¬ Blocked s.store fault) ∧
      Wiped s.store t.store ∧ Vacant t.store) ∨
    ∃ fault t, Blocked s.store fault ∧ wipe.run.run s = (.error (.malformed fault), t) ∧
      t.store = s.store := by
  have hwipe : Wiping s.store (wipe.run.run s).1 (wipe.run.run s).2 :=
    Program.post_of_run_records (assures_wipe s)
  rcases hwipe with ⟨hr, y, hy, ht⟩ | ⟨fault, hblocked, hr, ht⟩
  · have hwiped : Wiped s.store (wipe.run.run s).2.store := by
      rw [ht]
      exact hy.wiped
    exact .inl ⟨_, Prod.ext hr rfl, hy.not_blocked, hwiped, hwiped.vacant⟩
  · exact .inr ⟨fault, _, hblocked, Prod.ext hr rfl, ht⟩

/-- A staged credential that is not one keeps all records in place. -/
theorem exists_wipe_blocked :
    ∃ (s t : Session Records) (fault : Json.Fault),
      s.store = (∅ : Records).insert Key.stagedCredential [120] ∧
      wipe.run.run s = (.error (.malformed fault), t) ∧ Key.stagedCredential ∈ t.store := by
  have hm : Key.stagedCredential ∈ (∅ : Records).insert Key.stagedCredential [120] :=
    Std.ExtTreeMap.mem_insert_self
  have hb : ((∅ : Records).insert Key.stagedCredential [120])[Key.stagedCredential]? =
      some [120] := by
    rw [Records.getElem?_insert, if_pos rfl]
  generalize (∅ : Records).insert Key.stagedCredential [120] = records at *
  obtain ⟨fault, hread⟩ : ∃ fault, Credential.read [120] = .error fault := ⟨_, rfl⟩
  have hblocked : Blocked records fault := ⟨hm, _, _, .inl rfl, hb, hread⟩
  let s : Session Records := ⟨records, ⟨fun _ => 0, 0⟩, [], []⟩
  rcases Program.post_of_run_records (assures_wipe s) with ⟨-, y, hy, -⟩ | ⟨fault, -, hr, ht⟩
  · exact absurd hblocked (hy.not_blocked fault)
  · exact ⟨s, _, fault, rfl, Prod.ext hr rfl, ht ▸ hm⟩

end PhraseVault.Vault
