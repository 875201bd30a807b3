import PhraseVault.Proofs.Vault.Refinement

/-!
# No phrase is lost

A ledger runs along with a vault whose changes may fail and whose process may stop between any two
calls. It notes what callers have been told, and for an operation that was stopped what the records
tell. In every session reached the records keep what the ledger says.
-/
namespace PhraseVault.Vault
variable {v : Option Contents} {s t : Session Unreliable} {x : Records}

/-- What is assumed of a request: the credential that it makes is not the stored one, and a candidate
that is accepted derives the cipher key of the password behind the credential. -/
structure Request.Fair (q : Request) (s : Session Unreliable) (v : Option Contents) : Prop where
  fresh : (q.operation s.ids).Fresh s.entropy s.store.records
  verified : ∀ c, v = some c → ∀ d, Stored s.store.records d →
    ∀ candidate ∈ (q.operation s.ids).candidates, d.accepts candidate = .ok true →
      d.cipherKey candidate = d.cipherKey c.password

/-- The sessions that runs lead to when they make only operations of some kind, each session with its
ledger. -/
inductive Runs (allowed : Operation → Prop) (s : Session Unreliable) (v : Option Contents) :
    Session Unreliable → Option Contents → Prop where
  | refl : Runs allowed s v s v
  | reopened {t : Session Unreliable} {w : Option Contents} (h : Runs allowed s v t w)
      (entropy : Entropy) (ids : List String) : Runs allowed s v (t.reopened entropy ids) w
  | answered {t u : Session Unreliable} {w : Option Contents} {q : Request} {n : ℕ} {a : Answer}
      (h : Runs allowed s v t w) (hop : allowed (q.operation t.ids)) (hq : q.Fair t w)
      (hn : q.program.run.calls n t = (.done (.ok a), u)) :
      Runs allowed s v u ((q.operation t.ids).effect w)
  | stopped {t : Session Unreliable} {w : Option Contents} {q : Request} (h : Runs allowed s v t w)
      (hop : allowed (q.operation t.ids)) (hq : q.Fair t w) (n : ℕ) :
      Runs allowed s v (q.program.run.calls n t).2
        ((q.operation t.ids).remainder w t.store.records (q.program.run.calls n t).2.store.records)

/-- The record that counts for an owner: the staged one once a rotation has taken effect. -/
def Counts (x : Records) (owner : String) (bytes : Bytes) : Prop :=
  (Committed x ∧ x[Key.stagedPhrase owner]?.or x[Key.phrase owner]? = some bytes) ∨
    (¬ Committed x ∧ x[Key.phrase owner]? = some bytes)

/-- Records in which nothing is lost and nothing is left over. -/
structure Sound (x : Records) (v : Option Contents) : Prop where
  key : ∀ key ∈ x, key = Key.credential ∨ key = Key.stagedCredential ∨
    ∃ owner, owner ≠ "" ∧ (key = Key.phrase owner ∨ key = Key.stagedPhrase owner)
  credential : ∀ key ∈ x, ∃ d, Stored x d
  staged : ∀ owner, Key.stagedPhrase owner ∈ x → Key.stagedCredential ∈ x ∧ Key.phrase owner ∈ x
  phrase : ∀ owner, Key.phrase owner ∈ x ↔ owner ∈ phrasesOf v
  opens : ∀ c, v = some c → ∃ d, Stored x d ∧
    (∃ salt keySalt, d = Credential.create c.password salt keySalt) ∧
    ∀ owner text, c.phrases[owner]? = some text →
      ∃ bytes, Counts x owner bytes ∧ Opens bytes owner (d.cipherKey c.password) text
  reveal : ∀ c, v = some c → ∀ owner text, c.phrases[owner]? = some text →
    ∀ t : Session Records, t.store = x → ((Vault.reveal owner c.password).run.run t).1 = .ok text

theorem Request.Fair.exists_judged {q : Request} (h : q.Fair s v) {y : Records}
    (hx : Settles s.store.records y) (hv : Represents y v) :
    ∃ agrees, (q.operation s.ids).Judged agrees y v := by
  cases v with
  | none => exact ⟨fun _ => false, fun _ hc => absurd hc (Option.some_ne_none _).symm⟩
  | some c =>
    obtain ⟨d, hd⟩ := hv
    obtain ⟨salt, keySalt, rfl⟩ := hd.made
    refine ⟨fun candidate => decide (Password.derive candidate (Utf8.encode salt) =
      Password.derive c.password (Utf8.encode salt)), ?_⟩
    rintro _ ⟨⟩ d hstored candidate hc
    obtain rfl := hstored.unique hd.stored
    refine ⟨Credential.accepts_create .., fun hagrees => ?_⟩
    refine h.verified c rfl _ (hx.stored.mp hd.stored) candidate hc ?_
    exact (Credential.accepts_create ..).trans (congrArg Except.ok hagrees)

/-- Whatever has become of a request, its operation's remainder is kept, and what it was answered
is true. -/
theorem Request.keeps_of_calls {q : Request} (h : Keeps s.store.records v) (hq : q.Fair s v)
    (n : ℕ) :
    Keeps (q.program.run.calls n s).2.store.records
        ((q.operation s.ids).remainder v s.store.records
          (q.program.run.calls n s).2.store.records) ∧
      ∀ a, (q.program.run.calls n s).1 = .done (.ok a) →
        Keeps (q.program.run.calls n s).2.store.records ((q.operation s.ids).effect v) ∧
          ∃ agrees, (q.operation s.ids).refusal agrees v = none := by
  obtain ⟨y, hx, hv⟩ := h
  obtain ⟨agrees, hj⟩ := hq.exists_judged hx hv
  have hfresh : (q.operation s.ids).Fresh s.entropy y :=
    fun password hp d hd => hq.fresh password hp d (hx.stored.mp hd)
  have hassures : Action.Assures True ((q.operation s.ids).Leaves True v s.store.records) q.program
      ((q.operation s.ids).Meets True agrees v (q.idsAfter s.ids)) s.bare :=
    Request.meets_program (s := s.bare) hx hv (.inr trivial) hj fun _ => hfresh
  obtain ⟨hrest, hleaves⟩ := Program.assures_calls hassures (fun _ => trivial)
    ((q.operation s.ids).leaves_of_settles hx hv _ hx) n
  refine ⟨hleaves trivial, fun a ha => ?_⟩
  rw [ha] at hrest
  rcases hrest.2 with ⟨-, fault, hfault⟩ | hmeets
  · cases hfault
  cases hr : (q.operation s.ids).refusal agrees v with
  | some fault =>
    rw [hr] at hmeets
    cases hmeets.1
  | none =>
    rw [hr] at hmeets
    obtain ⟨-, -, -, hholds⟩ := hmeets
    exact ⟨hholds.1, agrees, hr⟩

/-- A phrase whose sealing has been answered is in the ledger. -/
theorem Operation.phrase_effect_sealFor {agrees : String → Bool} {owner phrase password : String}
    (h : (sealFor owner phrase password).refusal agrees v = none) :
    (phrasesOf ((sealFor owner phrase password).effect v))[owner]? = some phrase := by
  cases v with
  | none => grind [refusal]
  | some c =>
    have hn : owner ∉ c.phrases := by grind [refusal, phrasesOf]
    simp only [effect, Option.map_some, phrasesOf]
    rw [Records.getElem?_insertIfNew, if_pos ⟨rfl, hn⟩]

theorem Runs.keeps {allowed : Operation → Prop} {w : Option Contents} (h : Runs allowed s v t w)
    (hs : Keeps s.store.records v) : Keeps t.store.records w := by
  induction h with
  | refl => exact hs
  | reopened _ entropy ids ih => exact ih
  | @answered t u w q n a _ _ hq hn ih =>
    have hkeeps := (Request.keeps_of_calls ih hq n).2 a
    rw [hn] at hkeeps
    exact (hkeeps rfl).1
  | stopped _ _ hq n ih => exact (Request.keeps_of_calls ih hq n).1

/-- A phrase stays in the ledger until an operation takes it away. -/
theorem Runs.phrase_kept {owner text : String} {w : Option Contents}
    (h : Runs (fun op => ¬ op.Removes owner) s v t w)
    (ht : (phrasesOf v)[owner]? = some text) : (phrasesOf w)[owner]? = some text := by
  induction h with
  | refl => exact ht
  | reopened _ entropy ids ih => exact ih
  | answered _ hop _ _ ih => exact Operation.phrase_effect ih hop
  | stopped _ hop _ n ih => exact Operation.phrase_remainder ih hop _ _

theorem Settles.counts {y : Records} (h : Settles x y) {owner : String} {bytes : Bytes}
    (hb : y[Key.phrase owner]? = some bytes) : Counts x owner bytes := by
  by_cases hc : Committed x
  · exact .inl ⟨hc, by rw [← h.phrase_of_committed hc, hb]⟩
  · exact .inr ⟨hc, by rw [← h.phrase_of_not_committed hc, hb]⟩

/-- Settled or not, the records reveal what is kept. -/
theorem Contains.run_reveal {y : Records} {d : Credential} {c : Contents} (h : Contains y d c)
    (hx : Settles x y) {owner text : String} (ht : c.phrases[owner]? = some text)
    {s : Session Records} (hs : s.store = x) :
    ((Vault.reveal owner c.password).run.run s).1 = .ok text := by
  subst hs
  obtain ⟨bytes, hb, hopens⟩ := h.exists_opens ht
  have hassures : Action.Assures False (fun _ => True) (Vault.reveal owner c.password)
      (fun r _ => r = .ok text) s := by
    refine Action.assures_settling_bind (Action.assures_shared hx) (fun _ _ => trivial)
      (fun hfails => hfails.elim) fun log => ?_
    have hsettled : Action.Assures False (fun _ => True) (Vault.reveal owner c.password)
        (fun r _ => r = .ok text) ⟨y, s.entropy, s.ids, log⟩ :=
      (Action.assures_reveal hx.stagedCredential h.stored hb hopens).mpr rfl
    rwa [Vault.reveal, Action.assures_shared_bind hx.stagedCredential] at hsettled
  exact Program.post_of_run_records hassures

/-- Only the empty store stands for a vault that keeps nothing. -/
theorem Settles.eq_empty {y : Records} (h : Settles x y) (hv : Represents y none) : x = ∅ := by
  subst hv
  refine h.eq_of_unstaged ?_
  rw [Records.getElem?_eq_none_iff]
  intro hs
  obtain ⟨-, d, hd⟩ := h.readable hs
  obtain ⟨bytes, hb, -⟩ := h.stored.mpr hd
  rw [getElem?_empty] at hb
  cases hb

theorem Keeps.sound (h : Keeps x v) : Sound x v := by
  obtain ⟨y, hx, hv⟩ := h
  have howner : ∀ owner, Key.phrase owner ∈ x → owner ≠ "" := by
    intro owner ho
    rcases hv.key _ ((hx.mem_phrase owner).mpr ho) with he | ⟨o, hne, he⟩
    · exact absurd he (Key.phrase_ne_credential owner)
    · rwa [Key.phrase_inj.mp he]
  refine ⟨?_, ?_, hx.tidy, ?_, ?_, ?_⟩
  · intro key hk
    cases Key.kind key with
    | stagedCredential => exact .inr (.inl rfl)
    | stagedPhrase owner =>
      exact .inr (.inr ⟨owner, howner owner (hx.tidy owner hk).2, .inr rfl⟩)
    | phrase owner => exact .inr (.inr ⟨owner, howner owner hk, .inl rfl⟩)
    | plain hp =>
      rw [← Records.getElem?_ne_none_iff, ← hx.plain key hp, Records.getElem?_ne_none_iff] at hk
      rcases hv.key key hk with he | ⟨owner, -, he⟩
      · exact .inl he
      · exact absurd he (hp.2.1 owner)
  · intro key hk
    cases v with
    | none =>
      rw [hx.eq_empty hv] at hk
      exact absurd hk Std.ExtTreeMap.not_mem_empty
    | some c =>
      obtain ⟨d, hd⟩ := hv
      exact ⟨d, hx.stored.mp hd.stored⟩
  · intro owner
    rw [← hx.mem_phrase, hv.mem_phrase]
  · rintro c rfl
    obtain ⟨d, hd⟩ := hv
    refine ⟨d, hx.stored.mp hd.stored, hd.made, fun owner text ht => ?_⟩
    obtain ⟨bytes, hb, hopens⟩ := hd.exists_opens ht
    exact ⟨bytes, hx.counts hb, hopens⟩
  · rintro c rfl owner text ht t hs
    obtain ⟨d, hd⟩ := hv
    exact hd.run_reveal hx ht hs

/-- In every session that a run from the empty store leads to, whatever changes failed and wherever
the process stopped, the records are sound. A phrase is in the ledger once its sealing is answered,
and stays there, and in sound records, until an operation takes it away. -/
theorem phrases_kept {schedule : ℕ → Option IoFault} {entropy : Entropy} {ids : List String}
    (h : Runs (fun _ => True) ⟨⟨∅, schedule, 0⟩, entropy, ids, []⟩ none s v) :
    Sound s.store.records v ∧
    (∀ (q : Request) n a t owner phrase password, q.Fair s v →
      q.operation s.ids = .sealFor owner phrase password →
      q.program.run.calls n s = (.done (.ok a), t) →
      (phrasesOf ((q.operation s.ids).effect v))[owner]? = some phrase) ∧
    ∀ owner text, (phrasesOf v)[owner]? = some text →
      ∀ t w, Runs (fun op => ¬ op.Removes owner) s v t w →
        (phrasesOf w)[owner]? = some text ∧ Sound t.store.records w := by
  have hs : Keeps s.store.records v := h.keeps (Represents.keeps (v := none) rfl)
  refine ⟨hs.sound, ?_, fun owner text ht t w hrun => ⟨hrun.phrase_kept ht, (hrun.keeps hs).sound⟩⟩
  intro q n a t owner phrase password hq hop hn
  obtain ⟨agrees, hr⟩ := ((Request.keeps_of_calls hs hq n).2 a (congrArg Prod.fst hn)).2
  rw [hop] at hr ⊢
  exact Operation.phrase_effect_sealFor hr

/-- On a store that does not fail, a request with the right password that is not refused is
answered. -/
theorem Runs.exists_answered {allowed : Operation → Prop} {w : Option Contents} {q : Request}
    (h : Runs allowed s v t w) (hw : Represents t.store.records w) (hworks : ¬ t.store.MayFail)
    (hop : allowed (q.operation t.ids))
    (hfresh : (q.operation t.ids).Fresh t.entropy t.store.records)
    (hhonest : ∀ c, w = some c → ∀ candidate ∈ (q.operation t.ids).candidates,
      Unicode.normalize candidate = Unicode.normalize c.password)
    (hr : (q.operation t.ids).refusal (agreesWith w) w = none) :
    ∃ u, Runs allowed s v u ((q.operation t.ids).effect w) ∧
      Represents u.store.records ((q.operation t.ids).effect w) ∧ ¬ u.store.MayFail := by
  have hq : q.Fair t w :=
    ⟨hfresh, fun c hc d _ candidate hm _ => Password.cipherKey_congr (hhonest c hc candidate hm) _⟩
  obtain ⟨a, u, hrun, hu, hworks'⟩ := exists_run_of_honest hw hworks hhonest hr
  obtain ⟨n, hn⟩ := Program.exists_calls_eq_run q.program.run t
  rw [hrun] at hn
  exact ⟨u, h.answered hop hq hn, hu, hworks'⟩

theorem phrases_kept_sealed :
    ∃ s : Session Unreliable, Sound s.store.records
      (some ⟨"a", (∅ : Phrases).insertIfNew "o" "word"⟩) := by
  have hstart : Runs (fun _ => True) ⟨⟨∅, fun _ => none, 0⟩, ⟨fun _ => 0, 0⟩, [], []⟩ none
      ⟨⟨∅, fun _ => none, 0⟩, ⟨fun _ => 0, 0⟩, [], []⟩ none := .refl
  have hblank : isBlank "word" = false := by decide
  have hfresh : (Operation.setPassword "a").Fresh ⟨fun _ => 0, 0⟩ ∅ := by
    rintro _ - d ⟨bytes, hb, -⟩
    cases (getElem?_empty Key.credential).symm.trans hb
  obtain ⟨t, hset, ht, hworks⟩ := hstart.exists_answered (q := .perform (.setPassword "a")) rfl
    (Unreliable.not_mayFail_of_none fun _ _ => rfl) trivial hfresh (by rintro _ ⟨⟩)
    (by simp [Request.operation, Operation.refusal, phrasesOf])
  obtain ⟨u, hseal, -, -⟩ := hset.exists_answered (q := .perform (.sealFor "o" "word" "a")) ht hworks
    trivial (Operation.fresh_of_renewal?_eq_none rfl _ _)
    (by simp [Request.operation, Operation.candidates, Operation.effect])
    (by simp [Request.operation, Operation.refusal, Operation.effect, phrasesOf, agreesWith,
      Contents.agrees, hblank])
  exact ⟨u, (phrases_kept hseal).1⟩

end PhraseVault.Vault
