import PhraseVault.Proofs.Vault.Rules

/-!
# What settling leads to

Records in the middle of a rotation stand for settled records: those that settling leaves in the end.
Every change that settling makes keeps what the records stand for, so it does not matter which
changes fail or where the process stops.
-/
namespace PhraseVault.Vault
variable {x y : Records}

/-- The records hold a staged credential that can be read. -/
def Staged (r : Records) (c : Credential) : Prop :=
  ∃ bytes, r[Key.stagedCredential]? = some bytes ∧ Credential.read bytes = .ok c

/-- The staged credential is the stored one: the rotation has taken effect. -/
def Committed (r : Records) : Prop := ∃ c, Staged r c ∧ Stored r c

/-- Settling leads from records to settled ones. -/
structure Settles (x y : Records) : Prop where
  readable : Key.stagedCredential ∈ x → (∃ c, Staged x c) ∧ ∃ c, Stored x c
  tidy : ∀ owner, Key.stagedPhrase owner ∈ x → Key.stagedCredential ∈ x ∧ Key.phrase owner ∈ x
  stagedCredential : y[Key.stagedCredential]? = none
  stagedPhrase : ∀ owner, y[Key.stagedPhrase owner]? = none
  phrase_of_committed : Committed x → ∀ owner,
    y[Key.phrase owner]? = x[Key.stagedPhrase owner]?.or x[Key.phrase owner]?
  phrase_of_not_committed : ¬ Committed x → ∀ owner, y[Key.phrase owner]? = x[Key.phrase owner]?
  plain : ∀ key, Key.IsPlain key → y[key]? = x[key]?

/-- What settling makes of records with a staged rotation. -/
structure Resolved (x y : Records) : Prop where
  stagedCredential : y[Key.stagedCredential]? = none
  stagedPhrase : ∀ owner, y[Key.stagedPhrase owner]? = none
  phrase_of_committed : Committed x → ∀ owner,
    y[Key.phrase owner]? = x[Key.stagedPhrase owner]?.or x[Key.phrase owner]?
  phrase_of_not_committed : ¬ Committed x → ∀ owner, y[Key.phrase owner]? = x[Key.phrase owner]?
  plain : ∀ key, Key.IsPlain key → y[key]? = x[key]?

/-- Settling can be finished from records, whatever else they hold, and leads to others. -/
structure Resolves (x y : Records) : Prop where
  eq_of_unstaged : Key.stagedCredential ∉ x → x = y
  readable : Key.stagedCredential ∈ x →
    (∃ c, Staged x c) ∧ (Key.credential ∈ x → ∃ d, Stored x d)
  resolved : Key.stagedCredential ∈ x → Resolved x y

/-- Kept by every change that settling makes. -/
structure Steady (ok : Records → Prop) : Prop where
  place : ∀ x owner bytes, ok x → x[Key.stagedPhrase owner]? = some bytes →
    ok (x.insert (Key.phrase owner) bytes)
  drop : ∀ x owner, ok x → ok (x.erase (Key.stagedPhrase owner))
  finish : ∀ x, ok x → ok (x.erase Key.stagedCredential)

/-- How far settling has come: the credential is as before, no phrase is lost, and nothing more is
staged. -/
structure Advances (x z : Records) : Prop where
  credential : z[Key.credential]? = x[Key.credential]?
  phrase : ∀ owner, Key.phrase owner ∈ x → Key.phrase owner ∈ z
  stagedCredential : Key.stagedCredential ∈ z → Key.stagedCredential ∈ x
  stagedPhrase : ∀ owner, Key.stagedPhrase owner ∈ z → Key.stagedPhrase owner ∈ x

theorem Staged.unique {c d : Credential} (hc : Staged x c) (hd : Staged x d) : c = d := by
  obtain ⟨bytes, hb, hr⟩ := hc
  obtain ⟨bytes', hb', hr'⟩ := hd
  cases hb.symm.trans hb'
  exact Except.ok.inj (hr.symm.trans hr')

theorem committed_iff {c d : Credential} (hc : Staged x c) (hd : Stored x d) :
    Committed x ↔ d = c := by
  constructor
  · rintro ⟨e, hs, he⟩
    rw [hd.unique he, hs.unique hc]
  · rintro rfl
    exact ⟨d, hc, hd⟩

theorem stored_congr (h : y[Key.credential]? = x[Key.credential]?) (c : Credential) :
    Stored y c ↔ Stored x c := by
  rw [Stored, Stored, h]

private theorem staged_congr (h : y[Key.stagedCredential]? = x[Key.stagedCredential]?)
    (c : Credential) : Staged y c ↔ Staged x c := by
  rw [Staged, Staged, h]

private theorem committed_congr (hc : y[Key.credential]? = x[Key.credential]?)
    (hs : y[Key.stagedCredential]? = x[Key.stagedCredential]?) : Committed y ↔ Committed x := by
  simp only [Committed, staged_congr hs, stored_congr hc]

theorem committed_insert_phrase (owner : String) (bytes : Bytes) :
    Committed (x.insert (Key.phrase owner) bytes) ↔ Committed x := by
  refine committed_congr ?_ ?_
  · rw [Records.getElem?_insert, if_neg (Key.phrase_ne_credential owner)]
  · rw [Records.getElem?_insert, if_neg (Key.phrase_ne_stagedCredential owner)]

theorem committed_erase_stagedPhrase (owner : String) :
    Committed (x.erase (Key.stagedPhrase owner)) ↔ Committed x := by
  refine committed_congr ?_ ?_
  · rw [Records.getElem?_erase, if_neg (Key.stagedPhrase_ne_credential owner)]
  · rw [Records.getElem?_erase, if_neg (Key.stagedPhrase_ne_stagedCredential owner)]

theorem Staged.mem {c : Credential} (h : Staged x c) : Key.stagedCredential ∈ x := by
  obtain ⟨bytes, hb, -⟩ := h
  exact Records.mem_of_getElem? hb

theorem Committed.mem (h : Committed x) : Key.stagedCredential ∈ x := by
  obtain ⟨c, hc, -⟩ := h
  exact hc.mem

namespace Resolves

theorem refl (hc : Key.stagedCredential ∉ y) : Resolves y y where
  eq_of_unstaged _ := rfl
  readable h := absurd h hc
  resolved h := absurd h hc

theorem stagedCredential (h : Resolves x y) : y[Key.stagedCredential]? = none := by
  by_cases hm : Key.stagedCredential ∈ x
  · exact (h.resolved hm).stagedCredential
  · rw [← h.eq_of_unstaged hm]
    exact Records.getElem?_eq_none_iff.mpr hm

theorem self (h : Resolves x y) : Resolves y y :=
  refl (Records.getElem?_eq_none_iff.mp h.stagedCredential)

/-- The records stand for only one settled state. -/
theorem unique {z : Records} (h : Resolves x y) (hz : Resolves x z) : y = z := by
  by_cases hm : Key.stagedCredential ∈ x
  · have hy := h.resolved hm
    have hz := hz.resolved hm
    refine Std.ExtTreeMap.ext_getElem? fun key => ?_
    cases Key.kind key with
    | stagedCredential => rw [hy.stagedCredential, hz.stagedCredential]
    | stagedPhrase owner => rw [hy.stagedPhrase, hz.stagedPhrase]
    | phrase owner =>
      by_cases hc : Committed x
      · rw [hy.phrase_of_committed hc, hz.phrase_of_committed hc]
      · rw [hy.phrase_of_not_committed hc, hz.phrase_of_not_committed hc]
    | plain hp => rw [hy.plain key hp, hz.plain key hp]
  · rw [← h.eq_of_unstaged hm, ← hz.eq_of_unstaged hm]

/-- A staged phrase is put in place. -/
theorem place (h : Resolves x y) (hc : Committed x) {owner : String} {bytes : Bytes}
    (hb : x[Key.stagedPhrase owner]? = some bytes) :
    Resolves (x.insert (Key.phrase owner) bytes) y := by
  have hcc : Committed (x.insert (Key.phrase owner) bytes) :=
    (committed_insert_phrase owner bytes).mpr hc
  have hy := h.resolved hc.mem
  refine ⟨fun hn => absurd hcc.mem hn, fun _ => ?_, fun _ => ?_⟩
  · obtain ⟨c, hs, hd⟩ := hcc
    exact ⟨⟨c, hs⟩, fun _ => ⟨c, hd⟩⟩
  · refine ⟨hy.stagedCredential, hy.stagedPhrase, fun _ o => ?_, fun hn => absurd hcc hn,
      fun key hp => ?_⟩
    · rw [hy.phrase_of_committed hc, Records.getElem?_insert, Records.getElem?_insert]
      by_cases ho : owner = o
      · simp [← ho, hb]
      · simp [ho]
    · rw [hy.plain key hp, Records.getElem?_insert, if_neg (hp.2.1 owner).symm]

/-- A staged phrase is dropped, after it has been put in place if the rotation took effect. -/
theorem drop (h : Resolves x y) (hm : Key.stagedCredential ∈ x) {owner : String}
    (hp : Committed x → ∀ bytes, x[Key.stagedPhrase owner]? = some bytes →
      x[Key.phrase owner]? = some bytes) :
    Resolves (x.erase (Key.stagedPhrase owner)) y := by
  have hcc : Committed (x.erase (Key.stagedPhrase owner)) ↔ Committed x :=
    committed_erase_stagedPhrase owner
  have hkept : ∀ key, Key.stagedPhrase owner ≠ key →
      (x.erase (Key.stagedPhrase owner))[key]? = x[key]? := by
    intro key hk
    rw [Records.getElem?_erase, if_neg hk]
  have hmem : ∀ key, key ∈ x.erase (Key.stagedPhrase owner) → key ∈ x :=
    fun key hk => Std.ExtTreeMap.mem_of_mem_erase hk
  have hy := h.resolved hm
  refine ⟨fun hn => ?_, fun _ => ?_, fun _ => ?_⟩
  · refine absurd hm ?_
    rwa [← Records.getElem?_eq_none_iff, ← hkept _ (by simp), Records.getElem?_eq_none_iff]
  · obtain ⟨⟨c, hc⟩, hd⟩ := h.readable hm
    refine ⟨⟨c, (staged_congr (hkept _ (by simp)) c).mpr hc⟩, fun hk => ?_⟩
    obtain ⟨d, hd⟩ := hd (hmem _ hk)
    exact ⟨d, (stored_congr (hkept _ (by simp)) d).mpr hd⟩
  · refine ⟨hy.stagedCredential, hy.stagedPhrase, fun hc o => ?_, fun hn o => ?_, fun key hk => ?_⟩
    · rw [hy.phrase_of_committed (hcc.mp hc), Records.getElem?_erase, hkept _ (by simp)]
      by_cases ho : owner = o
      · rw [← ho]
        cases hb : x[Key.stagedPhrase owner]? with
        | none => simp
        | some bytes => simp [hp (hcc.mp hc) bytes hb]
      · simp [ho]
    · rw [hy.phrase_of_not_committed (fun hc => hn (hcc.mpr hc)), hkept _ (by simp)]
    · rw [hy.plain key hk, hkept _ (hk.2.2 owner).symm]

/-- The staged credential goes once no staged phrase is left. -/
theorem finish (h : Resolves x y) (hm : Key.stagedCredential ∈ x)
    (hs : ∀ owner, Key.stagedPhrase owner ∉ x) : x.erase Key.stagedCredential = y := by
  have hn : ∀ owner, x[Key.stagedPhrase owner]? = none :=
    fun owner => Records.getElem?_eq_none_iff.mpr (hs owner)
  have hy := h.resolved hm
  refine Std.ExtTreeMap.ext_getElem? fun key => ?_
  rw [Records.getElem?_erase]
  cases Key.kind key with
  | stagedCredential => rw [if_pos rfl, hy.stagedCredential]
  | stagedPhrase owner => rw [hy.stagedPhrase, hn]; simp
  | phrase owner =>
    rw [if_neg (by simp)]
    by_cases hc : Committed x
    · rw [hy.phrase_of_committed hc, hn, Option.none_or]
    · rw [hy.phrase_of_not_committed hc]
  | plain hp => rw [if_neg hp.1.symm, hy.plain key hp]

end Resolves

theorem Advances.refl (x : Records) : Advances x x := ⟨rfl, fun _ h => h, fun h => h, fun _ h => h⟩

theorem steady_advances (x : Records) : Steady (Advances x) where
  place z owner bytes h _ := by
    refine ⟨?_, fun o ho => ?_, fun hm => ?_, fun o ho => ?_⟩
    · rw [Records.getElem?_insert, if_neg (Key.phrase_ne_credential owner), h.credential]
    · exact Std.ExtTreeMap.mem_insert.mpr (.inr (h.phrase o ho))
    · exact h.stagedCredential (by simpa [Std.ExtTreeMap.mem_insert] using hm)
    · exact h.stagedPhrase o (by simpa [Std.ExtTreeMap.mem_insert] using ho)
  drop z owner h := by
    refine ⟨?_, fun o ho => ?_, fun hm => ?_, fun o ho => ?_⟩
    · rw [Records.getElem?_erase, if_neg (Key.stagedPhrase_ne_credential owner), h.credential]
    · simpa [Std.ExtTreeMap.mem_erase] using h.phrase o ho
    · exact h.stagedCredential (Std.ExtTreeMap.mem_of_mem_erase hm)
    · exact h.stagedPhrase o (Std.ExtTreeMap.mem_of_mem_erase ho)
  finish z h := by
    refine ⟨?_, fun o ho => ?_, fun hm => ?_, fun o ho => ?_⟩
    · rw [Records.getElem?_erase, if_neg Key.stagedCredential_ne_credential, h.credential]
    · simpa [Std.ExtTreeMap.mem_erase] using h.phrase o ho
    · exact h.stagedCredential (Std.ExtTreeMap.mem_of_mem_erase hm)
    · exact h.stagedPhrase o (Std.ExtTreeMap.mem_of_mem_erase ho)

namespace Settles

theorem stored (h : Settles x y) {c : Credential} : Stored y c ↔ Stored x c :=
  stored_congr (h.plain _ Key.isPlain_credential) c

/-- Without a staged credential nothing is left to settle. -/
theorem eq_of_unstaged (h : Settles x y) (hx : x[Key.stagedCredential]? = none) : x = y := by
  have hm : Key.stagedCredential ∉ x := Records.getElem?_eq_none_iff.mp hx
  have hn : ¬ Committed x := fun hc => hm hc.mem
  refine Std.ExtTreeMap.ext_getElem? fun key => ?_
  cases Key.kind key with
  | stagedCredential => rw [hx, h.stagedCredential]
  | stagedPhrase owner =>
    rw [h.stagedPhrase, Records.getElem?_eq_none_iff]
    exact fun ho => hm (h.tidy owner ho).1
  | phrase owner => exact (h.phrase_of_not_committed hn owner).symm
  | plain hp => exact (h.plain key hp).symm

theorem resolves (h : Settles x y) : Resolves x y where
  eq_of_unstaged hm := h.eq_of_unstaged (Records.getElem?_eq_none_iff.mpr hm)
  readable hm := (h.readable hm).imp_right fun hd _ => hd
  resolved _ := ⟨h.stagedCredential, h.stagedPhrase, h.phrase_of_committed,
    h.phrase_of_not_committed, h.plain⟩

/-- Records with nothing staged are settled. -/
theorem refl (hc : y[Key.stagedCredential]? = none) (hs : ∀ owner, y[Key.stagedPhrase owner]? = none) :
    Settles y y where
  readable h := absurd h (Records.getElem?_eq_none_iff.mp hc)
  tidy owner h := absurd h (Records.getElem?_eq_none_iff.mp (hs owner))
  stagedCredential := hc
  stagedPhrase := hs
  phrase_of_committed _ owner := by rw [hs owner, Option.none_or]
  phrase_of_not_committed _ _ := rfl
  plain _ _ := rfl

theorem self (h : Settles x y) : Settles y y := refl h.stagedCredential h.stagedPhrase

/-- On the way to settled records nothing comes loose. -/
theorem of_advances {z : Records} (h : Settles x y) (hz : Resolves z y) (ha : Advances x z) :
    Settles z y := by
  by_cases hm : Key.stagedCredential ∈ z
  · have hy := hz.resolved hm
    refine ⟨fun _ => ?_, fun owner ho => ?_, hy.stagedCredential, hy.stagedPhrase,
      hy.phrase_of_committed, hy.phrase_of_not_committed, hy.plain⟩
    · obtain ⟨d, hd⟩ := (h.readable (ha.stagedCredential hm)).2
      exact ⟨(hz.readable hm).1, d, (stored_congr ha.credential d).mpr hd⟩
    · exact ⟨hm, ha.phrase owner (h.tidy owner (ha.stagedPhrase owner ho)).2⟩
  · rw [hz.eq_of_unstaged hm]
    exact h.self

end Settles

namespace Action
variable {β : Type} {fails : Prop} {ok : Records → Prop} {s : Session Records}
variable {post : Except Fault β → Session Records → Prop}

/-- An action that settles ends with settled records, or with a failed change and records that stand
for the same. -/
def Settling (fails : Prop) (y : Records) (s : Session Records) (r : Except Fault Unit)
    (t : Session Records) : Prop :=
  t.entropy = s.entropy ∧ t.ids = s.ids ∧
    (r = .ok () ∧ t.store = y ∨ fails ∧ (∃ fault, r = .error (.io fault)) ∧ Settles t.store y)

/-- How settling ends, from whatever records it can be finished. -/
structure Resolving (fails : Prop) (ok : Records → Prop) (y : Records) (s : Session Records)
    (r : Except Fault Unit) (t : Session Records) : Prop where
  entropy : t.entropy = s.entropy
  ids : t.ids = s.ids
  resolves : Resolves t.store y
  keeps : ok t.store
  outcome : r = .ok () ∧ t.store = y ∨ fails ∧ ∃ fault, r = .error (.io fault)

/-- What unstaging has done when it was not stopped by a failed change. -/
private structure Unstaged (fails : Prop) (ok : Records → Prop) (y : Records)
    (owners : List String) (s : Session Records) (r : Except Fault Unit) (t : Session Records) :
    Prop where
  entropy : t.entropy = s.entropy
  ids : t.ids = s.ids
  resolves : Resolves t.store y
  keeps : ok t.store
  outcome : r = .ok () ∧ Key.stagedCredential ∈ t.store ∧
    (∀ o, Key.stagedPhrase o ∈ t.store → o ∉ owners ∧ Key.stagedPhrase o ∈ s.store) ∨
      fails ∧ ∃ fault, r = .error (.io fault)

private theorem assures_erase_staged {b : Bool} {owner : String} {owners : List String}
    (hok : Steady ok) (h : Resolves s.store y) (hs : ok s.store)
    (hm : Key.stagedCredential ∈ s.store) (hb : b = true ↔ Committed s.store)
    (hp : Committed s.store → ∀ bytes, s.store[Key.stagedPhrase owner]? = some bytes →
      s.store[Key.phrase owner]? = some bytes)
    (ih : ∀ s : Session Records, Resolves s.store y → ok s.store →
      Key.stagedCredential ∈ s.store → (b = true ↔ Committed s.store) →
      Assures fails (fun z => Resolves z y ∧ ok z) (unstage b owners)
        (Unstaged fails ok y owners s) s) :
    Assures fails (fun z => Resolves z y ∧ ok z)
      (erase (Key.stagedPhrase owner) >>= fun _ => unstage b owners)
      (Unstaged fails ok y (owner :: owners) s) s := by
  rw [assures_erase_bind]
  have he := h.drop hm hp
  have hoke := hok.drop _ owner hs
  refine ⟨fun hf fault => ⟨rfl, rfl, h, hs, .inr ⟨hf, fault, rfl⟩⟩, ⟨he, hoke⟩, ?_⟩
  have hme : Key.stagedCredential ∈ s.store.erase (Key.stagedPhrase owner) := by
    simpa [Std.ExtTreeMap.mem_erase] using hm
  refine (ih _ he hoke hme (hb.trans (committed_erase_stagedPhrase owner).symm)).mono
    (fun _ hr => hr) ?_
  rintro r t ⟨h1, h2, ht, hokt, hr⟩
  refine ⟨h1, h2, ht, hokt, hr.imp_left ?_⟩
  rintro ⟨rfl, hmt, hleft⟩
  refine ⟨rfl, hmt, fun o ho => ?_⟩
  obtain ⟨hn, hi⟩ := hleft o ho
  rw [Std.ExtTreeMap.mem_erase, ne_eq, Std.compare_eq_iff_eq, Key.stagedPhrase_inj] at hi
  exact ⟨fun hc => (List.mem_cons.mp hc).elim (fun e => hi.1 e.symm) hn, hi.2⟩

private theorem assures_unstage (hok : Steady ok) (b : Bool) (owners : List String)
    (s : Session Records) (h : Resolves s.store y) (hs : ok s.store)
    (hm : Key.stagedCredential ∈ s.store) (hb : b = true ↔ Committed s.store) :
    Assures fails (fun z => Resolves z y ∧ ok z) (unstage b owners)
      (Unstaged fails ok y owners s) s := by
  induction owners generalizing s with
  | nil => exact ⟨rfl, rfl, h, hs, .inl ⟨rfl, hm, fun o ho => ⟨List.not_mem_nil, ho⟩⟩⟩
  | cons owner owners ih =>
    cases b with
    | false =>
      refine assures_erase_staged hok h hs hm hb (fun hc => ?_) ih
      cases hb.mpr hc
    | true =>
      have hc := hb.mp rfl
      simp only [unstage, if_true]
      rw [assures_fetch_bind]
      cases hbytes : s.store[Key.stagedPhrase owner]? with
      | none =>
        refine assures_erase_staged hok h hs hm hb (fun _ bytes hsome => ?_) ih
        cases hbytes.symm.trans hsome
      | some bytes =>
        simp only []
        rw [assures_put_bind]
        have hp := h.place hc hbytes
        have hokp := hok.place _ owner bytes hs hbytes
        have hcp := (committed_insert_phrase owner bytes).mpr hc
        refine ⟨fun hf fault => ⟨rfl, rfl, h, hs, .inr ⟨hf, fault, rfl⟩⟩, ⟨hp, hokp⟩, ?_⟩
        refine (assures_erase_staged hok hp hokp hcp.mem (iff_of_true rfl hcp)
          (fun _ bytes' hb' => ?_) ih).mono (fun _ hr => hr) ?_
        · rw [Records.getElem?_insert, if_neg (Key.phrase_ne_stagedPhrase owner owner)] at hb'
          rw [Records.getElem?_insert, if_pos rfl, ← hbytes, hb']
        · rintro r t ⟨h1, h2, ht, hokt, hr⟩
          refine ⟨h1, h2, ht, hokt, hr.imp_left ?_⟩
          rintro ⟨rfl, hmt, hleft⟩
          refine ⟨rfl, hmt, fun o ho => ⟨(hleft o ho).1, ?_⟩⟩
          have hi := (hleft o ho).2
          simpa [Std.ExtTreeMap.mem_insert] using hi

/-- What the stored credential is held against is the credential itself, if there is one. -/
private theorem exists_loaded {c : Credential} (hc : Staged s.store c)
    (hd : Key.credential ∈ s.store → ∃ d, Stored s.store d) :
    ∃ stored : Option Credential, ((stored == some c) = true ↔ Committed s.store) ∧
      ∀ f : Option Credential → Action β,
        Assures fails ok (loadCredential >>= f) post s ↔ Assures fails ok (f stored) post s := by
  by_cases hm : Key.credential ∈ s.store
  · obtain ⟨d, hd⟩ := hd hm
    refine ⟨some d, ?_, assures_loadCredential hd⟩
    rw [committed_iff hc hd]
    simp
  · have hn : s.store[Key.credential]? = none := Records.getElem?_eq_none_iff.mpr hm
    refine ⟨none, iff_of_false (by simp) ?_, assures_loadCredential_none hn⟩
    rintro ⟨_, -, bytes, hb, -⟩
    cases hn.symm.trans hb

/-- Whatever the records are and whichever changes fail, settling leads on to the same records. -/
theorem assures_settle_of_resolves (hok : Steady ok) (h : Resolves s.store y) (hs : ok s.store) :
    Assures fails (fun z => Resolves z y ∧ ok z) settle (Resolving fails ok y s) s := by
  rw [settle, assures_fetch_bind]
  by_cases hm : Key.stagedCredential ∈ s.store
  · obtain ⟨⟨c, bytes, hb, hr⟩, hd⟩ := h.readable hm
    obtain ⟨stored, hc, hload⟩ := exists_loaded ⟨bytes, hb, hr⟩ hd
    rw [hb]
    simp only []
    rw [assures_readCredential hr, hload, assures_listKeys_bind]
    refine assures_bind ((assures_unstage hok _ _ s h hs hm hc).mono (fun _ hr => hr) ?_)
    rintro r t ⟨h1, h2, ht, hokt, hr⟩
    rcases hr with ⟨rfl, hmt, hleft⟩ | ⟨hf, fault, rfl⟩
    · have hnone : ∀ owner, Key.stagedPhrase owner ∉ t.store := by
        intro owner ho
        obtain ⟨hn, hi⟩ := hleft owner ho
        refine hn (List.mem_filterMap.mpr ⟨_, ?_, Key.stagedOwner?_stagedPhrase owner⟩)
        exact Std.ExtTreeMap.mem_keys.mpr hi
      have hy := ht.finish hmt hnone
      have hoky := hok.finish _ hokt
      have hsettled : Resolves (t.store.erase Key.stagedCredential) y := by
        rw [hy]
        exact h.self
      refine (assures_erase_bind _ _).mpr ⟨fun hf fault => ?_, ⟨hsettled, hoky⟩, ?_⟩
      · exact ⟨h1, h2, ht, hokt, .inr ⟨hf, fault, rfl⟩⟩
      · exact ⟨h1, h2, hsettled, hoky, .inl ⟨rfl, hy⟩⟩
    · exact ⟨h1, h2, ht, hokt, .inr ⟨hf, fault, rfl⟩⟩
  · rw [Records.getElem?_eq_none_iff.mpr hm]
    exact ⟨rfl, rfl, h, hs, .inl ⟨rfl, h.eq_of_unstaged hm⟩⟩

theorem assures_shared_of_resolves (hok : Steady ok) (h : Resolves s.store y) (hs : ok s.store) :
    Assures fails (fun z => Resolves z y ∧ ok z) shared (Resolving fails ok y s) s := by
  rw [shared, sharedFor, assures_fetch_bind]
  cases hc : s.store[Key.stagedCredential]? with
  | none =>
    have hm := Records.getElem?_eq_none_iff.mp hc
    exact ⟨rfl, rfl, h, hs, .inl ⟨rfl, h.eq_of_unstaged hm⟩⟩
  | some bytes =>
    refine assures_bind ((assures_settle_of_resolves hok h hs).mono (fun _ hr => hr) ?_)
    rintro r t ⟨h1, h2, ht, hokt, hr⟩
    rcases hr with ⟨rfl, hy⟩ | ⟨hf, fault, rfl⟩
    · -- the second look finds nothing staged
      have hn : t.store[Key.stagedCredential]? = none := by rw [hy, h.stagedCredential]
      simp only [continued, sharedFor]
      rw [assures_fetch_bind, hn]
      exact ⟨h1, h2, ht, hokt, .inl ⟨rfl, hy⟩⟩
    · exact ⟨h1, h2, ht, hokt, .inr ⟨hf, fault, rfl⟩⟩

private theorem assures_of_advances {act : Action Unit} (h : Settles s.store y)
    (hact : Assures fails (fun z => Resolves z y ∧ Advances s.store z) act
      (Resolving fails (Advances s.store) y s) s) :
    Assures fails (Settles · y) act (Settling fails y s) s := by
  refine hact.mono (fun z hz => h.of_advances hz.1 hz.2) ?_
  rintro r t ⟨h1, h2, ht, ha, hr⟩
  refine ⟨h1, h2, hr.imp_right ?_⟩
  rintro ⟨hf, hfault⟩
  exact ⟨hf, hfault, h.of_advances ht ha⟩

theorem assures_settle (h : Settles s.store y) :
    Assures fails (Settles · y) settle (Settling fails y s) s :=
  assures_of_advances h
    (assures_settle_of_resolves (steady_advances s.store) h.resolves (.refl s.store))

theorem assures_shared (h : Settles s.store y) :
    Assures fails (Settles · y) shared (Settling fails y s) s :=
  assures_of_advances h
    (assures_shared_of_resolves (steady_advances s.store) h.resolves (.refl s.store))

/-- What follows the settling that opens an operation finds the settled records. -/
theorem assures_settling_bind {act : Action Unit}
    (hact : Assures fails (Settles · y) act (Settling fails y s) s)
    (hok : ∀ x, Settles x y → ok x)
    (hio : fails → ∀ fault t, t.ids = s.ids → Settles t.store y → post (.error (.io fault)) t)
    {f : Unit → Action β} (hf : ∀ log, Assures fails ok (f ()) post ⟨y, s.entropy, s.ids, log⟩) :
    Assures fails ok (act >>= f) post s := by
  refine assures_bind (hact.mono hok ?_)
  rintro r ⟨store, entropy, ids, log⟩ ⟨rfl, rfl, hr⟩
  rcases hr with ⟨rfl, rfl⟩ | ⟨hfails, ⟨fault, rfl⟩, ht⟩
  · exact hf log
  · exact hio hfails fault _ rfl ht

/-- Settled records are left alone. -/
theorem assures_shared_bind (hs : s.store[Key.stagedCredential]? = none) (f : Unit → Action β) :
    Assures fails ok (shared >>= f) post s ↔ Assures fails ok (f ()) post s := by
  rw [shared, sharedFor, bind_assoc, assures_fetch_bind, hs]
  exact Iff.rfl

theorem assures_settle_bind (hs : s.store[Key.stagedCredential]? = none) (f : Unit → Action β) :
    Assures fails ok (settle >>= f) post s ↔ Assures fails ok (f ()) post s := by
  rw [settle, bind_assoc, assures_fetch_bind, hs]
  exact Iff.rfl

end Action
end PhraseVault.Vault
