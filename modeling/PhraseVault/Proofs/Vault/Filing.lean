import PhraseVault.Proofs.Vault.Restart
import PhraseVault.Proofs.Vault.Simulation

/-!
# Operations over files

The records of a vault over files can be read back and have room in the directory, whatever operations
it has been through. What an operation assures while that stays so is how it ends.
-/
namespace PhraseVault

namespace Utf8

theorem length_encode_ofList_append (mark : List Char) (s : String) :
    (encode (String.ofList (mark ++ s.toList))).length =
      (mark.flatMap encodeChar).length + (encode s).length := by
  rw [encode, encode, String.toList_ofList, List.flatMap_append, List.length_append]

end Utf8

theorem fits_phrase {owner : String} :
    Fits (Key.phrase owner) ↔ (Utf8.encode owner).length ≤ 118 := by
  have hmark : (Key.phraseMark.flatMap Utf8.encodeChar).length = 7 := by decide
  rw [Fits, Key.phrase, Utf8.length_encode_ofList_append, hmark]
  omega

theorem fits_stagedPhrase {owner : String} :
    Fits (Key.stagedPhrase owner) ↔ (Utf8.encode owner).length ≤ 110 := by
  have hmark : (Key.stagedPhraseMark.flatMap Utf8.encodeChar).length = 15 := by decide
  rw [Fits, Key.stagedPhrase, Utf8.length_encode_ofList_append, hmark]
  omega

theorem Fits.phrase {owner : String} (h : Fits (Key.stagedPhrase owner)) :
    Fits (Key.phrase owner) := by
  rw [fits_stagedPhrase] at h
  rw [fits_phrase]
  omega

namespace Vault
open Vault.Action
variable {x y : Records}

/-- Records that can be read back and have room in a directory. -/
structure Filable (r : Records) : Prop where
  fits : ∀ key ∈ r, Fits key
  orderly : Orderly r

namespace Filable

theorem empty : Filable ∅ where
  fits _ h := absurd h Std.ExtTreeMap.not_mem_empty
  orderly := .empty

theorem insert (h : Filable x) {key : String} {value : Bytes} (hf : Fits key)
    (hl : Legible key value) : Filable (x.insert key value) where
  fits other ho := by
    rcases Std.ExtTreeMap.mem_insert.mp ho with he | ho
    · rw [← Std.compare_eq_iff_eq.mp he]
      exact hf
    · exact h.fits other ho
  orderly := h.orderly.insert hl

theorem erase (h : Filable x) (key : String) : Filable (x.erase key) where
  fits other ho := h.fits other (Std.ExtTreeMap.mem_of_mem_erase ho)
  orderly := h.orderly.erase key

/-- What has been staged has room in its place. -/
theorem steady : Steady Filable where
  place x owner bytes h hb := by
    have hm : Key.stagedPhrase owner ∈ x := Records.mem_of_getElem? hb
    exact h.insert (h.fits _ hm).phrase (h.orderly _ _ hb).place
  drop _ owner h := h.erase _
  finish _ h := h.erase _

theorem exists_resolves (h : Filable x) : ∃ y, Resolves x y :=
  Vault.exists_resolves fun hm =>
    ⟨h.orderly.exists_read (.inr rfl) hm, h.orderly.exists_read (.inl rfl)⟩

end Filable

/-- What settling keeps holds of what it leads to. -/
theorem Resolves.keeps (h : Resolves x y) {ok : Records → Prop} (hok : Steady ok) (hx : ok x) :
    ok y := by
  let s : Session Records := ⟨x, ⟨fun _ => 0, 0⟩, [], []⟩
  have hassures : Assures False (fun z => Resolves z y ∧ ok z) settle (Resolving False ok y s) s :=
    assures_settle_of_resolves hok h hx
  have hend := Program.post_of_run_records hassures
  obtain ⟨-, hy⟩ := hend.outcome.resolve_right fun hf => hf.1
  exact hy ▸ hend.keeps

namespace Action
variable {β : Type} {s : Session Records} {post : Except Fault β → Session Records → Prop}

/-- After settling, an action goes on with the records that settling leads to. -/
theorem assures_resolving_bind {act : Action Unit}
    (hact : Assures False (fun z => Resolves z y ∧ Filable z) act (Resolving False Filable y s) s)
    {f : Unit → Action β}
    (hf : ∀ log, Assures False Filable (f ()) post ⟨y, s.entropy, s.ids, log⟩) :
    Assures False Filable (act >>= f) post s := by
  refine assures_bind (hact.mono (fun _ hz => hz.2) ?_)
  rintro r ⟨store, entropy, ids, log⟩ ⟨rfl, rfl, -, -, hr⟩
  obtain ⟨rfl, rfl⟩ := hr.resolve_right fun h => h.1
  exact hf log

/-- A password verifies when there is a credential and it accepts it. -/
theorem assures_verifyPassword (hs : Filable s.store) (h : Resolves s.store y) (candidate : String) :
    Assures False Filable (verifyPassword candidate)
      (fun r _ => r = .ok true ↔ ∃ c, Stored y c ∧ c.accepts candidate = .ok true) s := by
  refine assures_resolving_bind (assures_shared_of_resolves Filable.steady h hs) fun log => ?_
  by_cases hm : Key.credential ∈ y
  · obtain ⟨c, hc⟩ : ∃ c, Stored y c :=
      (h.keeps Filable.steady hs).orderly.exists_read (.inl rfl) hm
    have hiff : (∃ d, Stored y d ∧ d.accepts candidate = .ok true) ↔
        c.accepts candidate = .ok true := by
      constructor
      · rintro ⟨d, hd, ha⟩
        exact hc.unique hd ▸ ha
      · exact fun ha => ⟨c, hc, ha⟩
    simp only [hiff]
    rw [assures_requireCredential hc]
    cases ha : c.accepts candidate with
    | error fault =>
      rw [matching, ha]
      exact iff_of_false (by simp) (by simp)
    | ok b =>
      rw [assures_matching ha]
      cases b with
      | false => exact iff_of_false (by simp) (by simp)
      | true => exact iff_of_true rfl rfl
  · have hn : y[Key.credential]? = none := Records.getElem?_eq_none_iff.mpr hm
    rw [assures_requireCredential_none hn]
    refine iff_of_false (by simp) ?_
    rintro ⟨_, ⟨bytes, hb, -⟩, -⟩
    cases hn.symm.trans hb

theorem assures_owners_of_resolves (hs : Filable s.store) (h : Resolves s.store y) :
    Assures False Filable owners (fun r _ => r = .ok (Records.owners y)) s := by
  refine assures_resolving_bind (assures_shared_of_resolves Filable.steady h hs) fun log => ?_
  rw [← bind_pure sealedOwners, assures_sealedOwners, assures_pure]

/-- A phrase is sealed for an owner that has none, if there is room for it. -/
theorem assures_sealFor (hs : Filable s.store) (h : Resolves s.store y) {c : Credential}
    {owner phrase password : String} (ho : owner ≠ "") (hb : ¬ isBlank phrase) (hc : Stored y c)
    (ha : c.accepts password = .ok true) (hn : Key.phrase owner ∉ y) (hf : Fits (Key.phrase owner)) :
    Assures False Filable (sealFor owner phrase password) (fun r t =>
      r = .ok (freshPhrase s.entropy owner phrase (c.cipherKey password)) ∧
        t.store = y.insert (Key.phrase owner)
          (freshPhrase s.entropy owner phrase (c.cipherKey password)).write ∧
        t.entropy = s.entropy.advance Iv.freshLength ∧ t.ids = s.ids) s := by
  have hk := length_cipherKey c password
  have hset := (h.keeps Filable.steady hs).insert hf
    (.of_opens (.inl rfl) hk (opens_freshPhrase s.entropy owner phrase hk))
  have hnone : ¬ y[Key.phrase owner]?.isSome := by
    rw [Option.isSome_iff_ne_none, not_not]
    exact Records.getElem?_eq_none_iff.mpr hn
  rw [sealFor, if_neg ho, if_neg hb]
  refine assures_resolving_bind (assures_settle_of_resolves Filable.steady h hs) fun log => ?_
  rw [assures_requireCredential hc, assures_demand ha, assures_fetch_bind, if_neg hnone,
    assures_sealPhrase, savePhrase, assures_put_bind, assures_report_bind, assures_pure]
  exact ⟨False.elim, hset, rfl, rfl, rfl, rfl⟩

theorem assures_setPassword_of_empty (hs : s.store = ∅) {password : String} (hp : password ≠ "") :
    Assures False Filable (setPassword password) (fun r t => r = .ok () ∧
      t.store = (∅ : Records).insert Key.credential (freshCredential s.entropy password).write ∧
      t.entropy = afterCredential s.entropy ∧ t.ids = s.ids) s := by
  have hempty : Filable s.store := by
    rw [hs]
    exact .empty
  have hstaged : Key.stagedCredential ∉ s.store := by
    rw [hs]
    exact Std.ExtTreeMap.not_mem_empty
  have hset := hempty.insert (by decide)
    (.of_credential (freshCredential s.entropy password) (.inl rfl))
  refine assures_resolving_bind (assures_settle_of_resolves Filable.steady (.refl hstaged) hempty)
    fun log => ?_
  rw [hs] at hset ⊢
  rw [assures_sealedOwners, if_neg (by simp [Records.owners]), assures_loadCredential_none (by simp),
    assures_newCredential hp, saveCredential, assures_put_bind, assures_report]
  exact ⟨False.elim, hset, rfl, rfl, rfl, rfl⟩

end Action

namespace Filed
variable {s : Session FileStore} {l : Session Limited}

theorem filable (h : Filed s l) : Filable l.unlimited.store where
  fits _ hk := (h.holds.fits hk).2
  orderly := h.orderly

/-- What an action assures while all keys fit is how it ends over files. -/
theorem post_of_run {α : Type} {act : Action α} {post : Except Fault α → Session Records → Prop}
    {mid : α → Prop} (h : Filed s l) (hg : Action.Guards act mid)
    (ha : Action.Assures False Filable act post l.unlimited) :
    ∃ l', Filed (act.run.run s).2 l' ∧ post (act.run.run s).1 l'.unlimited := by
  obtain ⟨hr, hf⟩ := Program.Guards.run_files hg h
  refine ⟨_, hf, ?_⟩
  rw [hr]
  exact Program.Assures.post_of_run_limited ha fun r hr => hr.fits

/-- A password verifies when the credential that settling leaves accepts it. -/
theorem run_verifyPassword (h : Filed s l) (hy : Resolves l.store.records y) (candidate : String) :
    ((verifyPassword candidate).run.run s).1 = .ok true ↔
      ∃ c, Stored y c ∧ c.accepts candidate = .ok true := by
  obtain ⟨_, -, hverify⟩ := h.post_of_run (guards_verifyPassword candidate)
    (assures_verifyPassword h.filable hy candidate)
  exact hverify

theorem run_owners (h : Filed s l) (hy : Resolves l.store.records y) :
    (owners.run.run s).1 = .ok (Records.owners y) := by
  obtain ⟨_, -, howners⟩ := h.post_of_run guards_owners (assures_owners_of_resolves h.filable hy)
  exact howners

end Filed

/-- Sessions over a directory that was empty or not there, after any operations and any new processes. -/
inductive Reached : Session FileStore → Prop where
  | start {s : Session FileStore} (h : s.store.Holds ∅) : Reached s
  | request {s : Session FileStore} (h : Reached s) (q : Request) :
      Reached (q.program.run.run s).2
  | reopened {s : Session FileStore} (h : Reached s) (entropy : Entropy) (ids : List String) :
      Reached (s.reopened entropy ids)

theorem Reached.exists_filed {s : Session FileStore} (h : Reached s) : ∃ l, Filed s l := by
  induction h with
  | @start s h => exact ⟨⟨⟨∅⟩, s.entropy, s.ids, s.log⟩, h, .empty, rfl, rfl, rfl⟩
  | request _ q ih =>
    obtain ⟨l, hl⟩ := ih
    exact ⟨_, (Program.Guards.run_files q.guards_program hl).2⟩
  | reopened _ entropy ids ih =>
    obtain ⟨l, hl⟩ := ih
    exact ⟨_, hl.reopened entropy ids⟩

/-- A vault over files to which a password has been given. -/
theorem exists_reached {password : String} (hp : password ≠ "") :
    ∃ s l salt keySalt, Reached s ∧ Filed s l ∧ l.store.records =
      (∅ : Records).insert Key.credential (Credential.create password salt keySalt).write := by
  obtain ⟨trail, ho⟩ := FileStore.open_of_find (FileStore.find_directory [])
    (FileStore.hasRoom_directory []) .nil
  have hholds : (FileStore.directory []).Holds ∅ := .present ho .nil
  let e : Entropy := ⟨fun _ => 0, 0⟩
  let start : Session Limited := ⟨⟨∅⟩, e, [], []⟩
  have hstart : Filed ⟨FileStore.directory [], e, [], []⟩ start := ⟨hholds, .empty, rfl, rfl, rfl⟩
  have hset : Action.Assures False Filable (Operation.setPassword password).program
      (fun _ t => t.store = (∅ : Records).insert Key.credential (freshCredential e password).write)
      start.unlimited :=
    assures_map _ ((assures_setPassword_of_empty rfl hp).mono (fun _ hz => hz) fun _ _ ht => ht.2.1)
  obtain ⟨l, hl, hstore⟩ := hstart.post_of_run (Operation.guards_program _) hset
  exact ⟨_, l, _, _, .request (.start hholds) (.perform (.setPassword password)), hl, hstore⟩

end Vault
end PhraseVault
