import PhraseVault.Proofs.Vault.Rotation

/-!
# Settling may be cut short and begun again

Settling leads from any records with a readable rotation to one outcome, which the records alone
determine. Attempts that are cut short, by a failed change or because the process stops, leave records
that lead to the same outcome.
-/
namespace PhraseVault.Records

/-- There are records with any values, as long as only finitely many keys have one. -/
theorem exists_getElem?_eq (f : String → Option Bytes) (keys : List String)
    (h : ∀ key, f key ≠ none → key ∈ keys) : ∃ r : Records, ∀ key, r[key]? = f key := by
  induction keys generalizing f with
  | nil =>
    refine ⟨∅, fun key => ?_⟩
    have hn : f key = none := by
      by_contra hf
      exact absurd (h key hf) List.not_mem_nil
    rw [hn, getElem?_eq_none_iff]
    exact Std.ExtTreeMap.not_mem_empty
  | cons first keys ih =>
    obtain ⟨r, hr⟩ := ih (fun key => if first = key then none else f key) fun key hf => by
      rw [ne_eq, ite_eq_left_iff, not_forall] at hf
      obtain ⟨hne, hf⟩ := hf
      exact (List.mem_cons.mp (h key hf)).resolve_left (Ne.symm hne)
    cases hf : f first with
    | none =>
      refine ⟨r, fun key => ?_⟩
      rw [hr key]
      by_cases he : first = key
      · rw [if_pos he, ← he, hf]
      · rw [if_neg he]
    | some bytes =>
      refine ⟨r.insert first bytes, fun key => ?_⟩
      rw [getElem?_insert, hr key]
      by_cases he : first = key
      · rw [if_pos he, ← he, hf]
      · rw [if_neg he, if_neg he]

end PhraseVault.Records

namespace PhraseVault.Key

theorem IsPlain.phraseOwner? {key : String} (h : IsPlain key) : phraseOwner? key = none := by
  rw [Option.eq_none_iff_forall_ne_some]
  exact fun owner ho => h.2.1 owner (phraseOwner?_eq_some.mp ho)

theorem IsPlain.stagedOwner? {key : String} (h : IsPlain key) : stagedOwner? key = none := by
  rw [Option.eq_none_iff_forall_ne_some]
  exact fun owner ho => h.2.2 owner (stagedOwner?_eq_some.mp ho)

end PhraseVault.Key

namespace PhraseVault.Vault
open Vault.Action
variable {x y : Records}

/-- The record of a key once records have been settled. -/
def resolution (committed : Bool) (x : Records) (key : String) : Option Bytes :=
  if key = Key.stagedCredential ∨ (Key.stagedOwner? key).isSome then none
  else
    match committed, Key.phraseOwner? key with
    | true, some owner => x[Key.stagedPhrase owner]?.or x[key]?
    | _, _ => x[key]?

private theorem exists_resolution (committed : Bool) (x : Records) :
    ∃ y : Records, ∀ key, y[key]? = resolution committed x key := by
  refine Records.exists_getElem?_eq _
    (x.keys ++ (x.keys.filterMap Key.stagedOwner?).map Key.phrase) fun key hf => ?_
  have hkey : ∀ other, x[other]? ≠ none → other ∈ x.keys := fun other ho =>
    Std.ExtTreeMap.mem_keys.mpr (Records.getElem?_ne_none_iff.mp ho)
  rw [List.mem_append]
  simp only [resolution] at hf
  split at hf
  · exact absurd rfl hf
  split at hf
  · next owner ho =>
    obtain rfl := Key.phraseOwner?_eq_some.mp ho
    by_cases hs : x[Key.stagedPhrase owner]? = none
    · rw [hs, Option.none_or] at hf
      exact .inl (hkey _ hf)
    · refine .inr (List.mem_map_of_mem (List.mem_filterMap.mpr ⟨_, hkey _ hs, ?_⟩))
      exact Key.stagedOwner?_stagedPhrase owner
  · exact .inl (hkey _ hf)

/-- Settling can be finished whenever the credentials it reads are readable. -/
theorem exists_resolves (h : Key.stagedCredential ∈ x →
    (∃ c, Staged x c) ∧ (Key.credential ∈ x → ∃ d, Stored x d)) : ∃ y, Resolves x y := by
  by_cases hm : Key.stagedCredential ∈ x
  · classical
    obtain ⟨y, hy⟩ := exists_resolution (decide (Committed x)) x
    refine ⟨y, fun hn => absurd hm hn, h, fun _ => ?_⟩
    have hphrase : ∀ owner, y[Key.phrase owner]? =
        if Committed x then x[Key.stagedPhrase owner]?.or x[Key.phrase owner]?
        else x[Key.phrase owner]? := by
      intro owner
      by_cases hc : Committed x <;> simp [hy, resolution, hc]
    refine ⟨?_, fun owner => ?_, fun hc owner => ?_, fun hn owner => ?_, fun key hk => ?_⟩
    · simp [hy, resolution]
    · simp [hy, resolution]
    · rw [hphrase, if_pos hc]
    · rw [hphrase, if_neg hn]
    · simp [hy, resolution, hk.1, hk.phraseOwner?, hk.stagedOwner?]
  · exact ⟨x, .refl hm⟩

theorem steady_true : Steady fun _ => True :=
  ⟨fun _ _ _ _ _ => trivial, fun _ _ _ => trivial, fun _ _ => trivial⟩

/-- Where no change fails, settling comes to its outcome. -/
theorem Resolves.run_settle (h : Resolves x y) {s : Session Records} (hs : s.store = x) :
    (settle.run.run s).1 = .ok () ∧ (settle.run.run s).2.store = y := by
  subst hs
  have hassures : Assures False (fun z => Resolves z y ∧ True) settle
      (Resolving False (fun _ => True) y s) s := assures_settle_of_resolves steady_true h trivial
  have hend := Program.post_of_run_records hassures
  exact hend.outcome.resolve_right fun hf => hf.1

/-- Settled records are left alone. -/
theorem run_settle_of_unstaged {s : Session Records} (h : Key.stagedCredential ∉ s.store) :
    settle.run.run s = (.ok (), s) := by
  have hassures : Assures False (fun _ => True) settle (fun r t => (r, t) = (.ok (), s)) s := by
    rw [settle, assures_fetch_bind, Records.getElem?_eq_none_iff.mpr h]
    exact rfl
  exact Program.post_of_run_records hassures

/-- Accesses that are cut short keep what settling leads to. -/
theorem Later.resolves {s t : Session Unreliable} (h : Later s t)
    (hs : Resolves s.store.records y) : Resolves t.store.records y := by
  have hok : ∀ (a : Access) (u : Session Records), Resolves u.store y →
      Assures True (Resolves · y) a.settling (fun _ _ => True) u := by
    intro a u hu
    have hassures : Assures True (fun z => Resolves z y ∧ True) a.settling
        (Resolving True (fun _ => True) y u) u := by
      cases a with
      | shared => exact assures_shared_of_resolves steady_true hu trivial
      | exclusive => exact assures_settle_of_resolves steady_true hu trivial
    exact hassures.mono (fun _ hz => hz.1) fun _ _ _ => trivial
  exact h.keeps (Resolves · y) hok hs

/-- An attempt that succeeds has come to the outcome, whatever changes might have failed. -/
theorem Resolves.records_of_run {s t : Session Unreliable} (h : Resolves s.store.records y)
    (hrun : settle.run.run s = (.ok (), t)) : t.store.records = y := by
  have hassures : Assures True (fun z => Resolves z y ∧ True) settle
      (Resolving True (fun _ => True) y s.bare) s.bare :=
    assures_settle_of_resolves steady_true h trivial
  have hend := Program.post_of_run hassures (fun _ => trivial) ⟨h, trivial⟩
  rw [hrun] at hend
  rcases hend.outcome with ⟨-, ht⟩ | ⟨-, fault, hf⟩
  · exact ht
  · cases hf

/-- Settling has one outcome. From records with a staged rotation that can be read, whatever else they
hold, one attempt that is not cut short comes to the same records as any number of attempts that are
and one that is not; and settling those again changes nothing. -/
theorem settling_restartable {s t : Session Unreliable} {c : Credential}
    (hstaged : Staged s.store.records c)
    (hstored : Key.credential ∈ s.store.records → ∃ d, Stored s.store.records d)
    (hlater : Later s t) :
    ∃ y, Resolved s.store.records y ∧
      (∀ u : Session Records, u.store = s.store.records →
        (settle.run.run u).1 = .ok () ∧ (settle.run.run u).2.store = y) ∧
      (∀ u : Session Records, u.store = t.store.records →
        (settle.run.run u).1 = .ok () ∧ (settle.run.run u).2.store = y) ∧
      (∀ v, settle.run.run t = (.ok (), v) → v.store.records = y) ∧
      ∀ u : Session Records, u.store = y → settle.run.run u = (.ok (), u) := by
  obtain ⟨y, hs⟩ := exists_resolves fun _ => ⟨⟨c, hstaged⟩, hstored⟩
  have ht : Resolves t.store.records y := hlater.resolves hs
  refine ⟨y, hs.resolved hstaged.mem, fun u hu => hs.run_settle hu, fun u hu => ht.run_settle hu,
    fun v hv => ht.records_of_run hv, ?_⟩
  rintro u rfl
  exact run_settle_of_unstaged (Records.getElem?_eq_none_iff.mp hs.stagedCredential)

/-- A rotation that has taken effect, with one phrase still to be moved. -/
def halfway (c : Credential) (owner : String) (bytes : Bytes) : Records :=
  (((∅ : Records).insert Key.credential c.write).insert Key.stagedCredential c.write).insert
    (Key.stagedPhrase owner) bytes

theorem halfway_credential (c : Credential) (owner : String) (bytes : Bytes) :
    (halfway c owner bytes)[Key.credential]? = some c.write := by
  rw [halfway, Records.getElem?_insert, if_neg (Key.stagedPhrase_ne_credential owner),
    Records.getElem?_insert, if_neg Key.stagedCredential_ne_credential, Records.getElem?_insert,
    if_pos rfl]

theorem halfway_stagedCredential (c : Credential) (owner : String) (bytes : Bytes) :
    (halfway c owner bytes)[Key.stagedCredential]? = some c.write := by
  rw [halfway, Records.getElem?_insert, if_neg (Key.stagedPhrase_ne_stagedCredential owner),
    Records.getElem?_insert, if_pos rfl]

theorem halfway_stagedPhrase (c : Credential) (owner : String) (bytes : Bytes) :
    (halfway c owner bytes)[Key.stagedPhrase owner]? = some bytes := by
  rw [halfway, Records.getElem?_insert, if_pos rfl]

theorem stored_halfway (c : Credential) (owner : String) (bytes : Bytes) :
    Stored (halfway c owner bytes) c :=
  ⟨c.write, halfway_credential c owner bytes, c.read_write⟩

theorem staged_halfway (c : Credential) (owner : String) (bytes : Bytes) :
    Staged (halfway c owner bytes) c :=
  ⟨c.write, halfway_stagedCredential c owner bytes, c.read_write⟩

theorem stagedOwners_halfway (c : Credential) (owner : String) (bytes : Bytes) :
    (halfway c owner bytes).keys.filterMap Key.stagedOwner? = [owner] := by
  have hmem : ∀ o, o ∈ (halfway c owner bytes).keys.filterMap Key.stagedOwner? ↔ o = owner := by
    intro o
    simp only [halfway, List.mem_filterMap, Std.ExtTreeMap.mem_keys, Std.ExtTreeMap.mem_insert,
      Std.compare_eq_iff_eq, Std.ExtTreeMap.not_mem_empty, or_false]
    constructor
    · rintro ⟨key, rfl | rfl | rfl, ho⟩
      · rw [Key.stagedOwner?_stagedPhrase] at ho
        exact (Option.some.inj ho).symm
      · cases ho
      · cases ho
    · rintro rfl
      exact ⟨_, .inl rfl, Key.stagedOwner?_stagedPhrase o⟩
  have hnodup : ((halfway c owner bytes).keys.filterMap Key.stagedOwner?).Nodup := by
    refine List.Nodup.filterMap ?_ ((Records.pairwise_keys _).imp fun h => h.ne)
    intro key key' o ho ho'
    rw [Key.stagedOwner?_eq_some.mp ho, Key.stagedOwner?_eq_some.mp ho']
  refine List.perm_singleton.mp ((List.perm_ext_iff_of_nodup hnodup (List.nodup_singleton _)).mpr ?_)
  exact fun o => by rw [hmem, List.mem_singleton]

/-- If the second change fails, the phrase has been put in place and is still staged. -/
theorem run_settle_halfway {s : Session Unreliable} {c : Credential} {owner : String}
    {bytes : Bytes} {fault : IoFault} (hs : s.store.records = halfway c owner bytes)
    (hput : s.store.schedule s.store.changes = none)
    (herase : s.store.schedule (s.store.changes + 1) = some fault) :
    ∃ t, settle.run.run s = (.error (.io fault), t) ∧
      t.store.records = s.store.records.insert (Key.phrase owner) bytes := by
  have hread : (readCredential c.write).run.run s = (.ok c, s) := by
    rw [readCredential, c.read_write]
    rfl
  have hstaged : (fetch Key.stagedCredential).run.run s = (.ok (some c.write), s) := by
    rw [run_fetch, hs, halfway_stagedCredential]
  have hstored : loadCredential.run.run s = (.ok (some c), s) := by
    rw [loadCredential, run_bind_ok (run_fetch _ _), hs, halfway_credential]
    exact run_bind_ok hread
  have hphrase : (fetch (Key.stagedPhrase owner)).run.run s = (.ok (some bytes), s) := by
    rw [run_fetch, hs, halfway_stagedPhrase]
  obtain ⟨t, hmoved, hrecords, herase⟩ : ∃ t,
      (put (Key.phrase owner) bytes).run.run s = (.ok (), t) ∧
        t.store.records = s.store.records.insert (Key.phrase owner) bytes ∧
        t.store.schedule t.store.changes = some fault := by
    rw [run_put, Unreliable.change, hput]
    exact ⟨_, rfl, rfl, herase⟩
  obtain ⟨u, hfailed, hkept⟩ : ∃ u,
      (erase (Key.stagedPhrase owner)).run.run t = (.error (.io fault), u) ∧
        u.store.records = t.store.records := by
    rw [run_erase, Unreliable.change, herase]
    exact ⟨_, rfl, rfl⟩
  have hunstage : (unstage true [owner]).run.run s = (.error (.io fault), u) := by
    rw [unstage, if_pos rfl, run_bind_ok hphrase]
    exact (run_bind_ok hmoved).trans (run_bind_error hfailed)
  refine ⟨u, ?_, hkept.trans hrecords⟩
  rw [settle, run_bind_ok hstaged]
  dsimp only
  rw [run_bind_ok hread, run_bind_ok hstored, run_bind_ok (run_listKeys s), hs,
    stagedOwners_halfway, beq_self_eq_true]
  exact run_bind_error hunstage

/-- The second change fails when the phrase is in place and still staged; another attempt leaves it
in place alone. -/
theorem settling_restartable_halfway :
    ∃ (s t : Session Unreliable) (n : ℕ) (y : Records),
      s.store.records = halfway ⟨"", "", ""⟩ "o" [1] ∧ s.store.schedule 1 = some .full ∧
      settle.run.calls n s = (.done (.error (.io .full)), t) ∧
      t.store.records[Key.phrase "o"]? = some [1] ∧
      t.store.records[Key.stagedPhrase "o"]? = some [1] ∧
      y[Key.phrase "o"]? = some [1] ∧ y[Key.stagedPhrase "o"]? = none ∧
      ∀ u : Session Records, u.store = t.store.records →
        (settle.run.run u).1 = .ok () ∧ (settle.run.run u).2.store = y := by
  let s : Session Unreliable := ⟨⟨halfway ⟨"", "", ""⟩ "o" [1],
    fun n => if n = 1 then some .full else none, 0⟩, ⟨fun _ => 0, 0⟩, [], []⟩
  have hstaged : Staged s.store.records ⟨"", "", ""⟩ := staged_halfway _ _ _
  have hstored : Stored s.store.records ⟨"", "", ""⟩ := stored_halfway _ _ _
  have hphrase : s.store.records[Key.stagedPhrase "o"]? = some [1] := halfway_stagedPhrase _ _ _
  have hfault : s.store.schedule 1 = some .full := rfl
  obtain ⟨t, hrun, hrecords⟩ := run_settle_halfway (s := s) rfl rfl hfault
  obtain ⟨n, hn⟩ := Program.exists_calls_eq_run settle.run s
  rw [hrun] at hn
  obtain ⟨y, hy, -, ht, -, -⟩ := settling_restartable hstaged (fun _ => ⟨_, hstored⟩)
    (.access .refl .exclusive n)
  rw [show Access.exclusive.settling = settle from rfl, hn] at ht
  refine ⟨s, t, n, y, rfl, rfl, hn, ?_, ?_, ?_, hy.stagedPhrase "o", ht⟩
  · rw [hrecords, Records.getElem?_insert, if_pos rfl]
  · rw [hrecords, Records.getElem?_insert, if_neg (by decide), hphrase]
  · rw [hy.phrase_of_committed ⟨_, hstaged, hstored⟩, hphrase, Option.some_or]

end PhraseVault.Vault
