import PhraseVault.Vault.Program
import Mathlib.Logic.Function.Iterate

/-!
# Programs cut short, on a store whose changes may fail

A program is run one call at a time, so what a crash leaves is the session after some number of
calls. What a program assures, whichever changes fail, is computed along its tree; `assures_calls`
carries it over to every point of every run.
-/
namespace PhraseVault.Vault
variable {σ α β : Type}

/-- Records of which a schedule says, change by change, whether it fails. A change that fails has no
effect. -/
structure Unreliable where
  records : Records
  schedule : Nat → Option IoFault
  changes : Nat

namespace Unreliable

def change (s : Unreliable) (f : Records → Records) : Except IoFault Unit × Unreliable :=
  match s.schedule s.changes with
  | none => (.ok (), { s with records := f s.records, changes := s.changes + 1 })
  | some fault => (.error fault, { s with changes := s.changes + 1 })

/-- Some change that is still to come is scheduled to fail. -/
def MayFail (s : Unreliable) : Prop := ∃ i fault, s.changes ≤ i ∧ s.schedule i = some fault

theorem not_mayFail_of_none {s : Unreliable} (h : ∀ i, s.changes ≤ i → s.schedule i = none) :
    ¬ s.MayFail := by
  rintro ⟨i, fault, hle, hi⟩
  cases (h i hle).symm.trans hi

theorem mayFail_of_change {s : Unreliable} {f : Records → Records} (h : (s.change f).2.MayFail) :
    s.MayFail := by
  obtain ⟨i, fault, hle, hi⟩ := h
  revert hle hi
  unfold change
  split
  · exact fun hle hi => ⟨i, fault, Nat.le_of_succ_le hle, hi⟩
  · exact fun hle hi => ⟨i, fault, Nat.le_of_succ_le hle, hi⟩

/-- A change that is not scheduled to fail is made. -/
theorem change_of_not_mayFail {s : Unreliable} (h : ¬ s.MayFail) (f : Records → Records) :
    s.change f = (.ok (), { s with records := f s.records, changes := s.changes + 1 }) := by
  unfold change
  split
  · rfl
  · next fault hi => exact absurd ⟨s.changes, fault, Nat.le_refl _, hi⟩ h

instance : RecordStore Unreliable where
  get key s := (.ok s.records[key]?, s)
  set key value s := s.change fun r => r.insert key value
  delete key s := s.change fun r => r.erase key
  keys s := (.ok ⟨s.records.keys, []⟩, s)

end Unreliable

/-- The session as the records alone show it. -/
def Session.bare (s : Session Unreliable) : Session Records := { s with store := s.store.records }

/-- A new process has its own source of random bytes, its own ids and an empty log. -/
def Session.reopened (s : Session σ) (entropy : Entropy) (ids : List String) : Session σ :=
  ⟨s.store, entropy, ids, []⟩

namespace Program

private theorem bind_done (p : Program α) : p.bind done = p := by
  induction p with
  | done a => rfl
  | _ => simp only [bind, *]

private theorem bind_bind {γ : Type} (p : Program α) (f : α → Program β) (g : β → Program γ) :
    (p.bind f).bind g = p.bind fun a => (f a).bind g := by
  induction p with
  | done a => rfl
  | _ => simp only [bind, *]

instance : LawfulMonad Program :=
  LawfulMonad.mk' Program bind_done (fun _ _ => rfl) bind_bind

/-- Makes one call. -/
def step [RecordStore σ] : Program α × Session σ → Program α × Session σ
  | (done a, s) => (done a, s)
  | (get key next, s) =>
    let (r, store) := RecordStore.get key s.store
    (next r, { s with store })
  | (set key value next, s) =>
    let (r, store) := RecordStore.set key value s.store
    (next r, { s with store })
  | (delete key next, s) =>
    let (r, store) := RecordStore.delete key s.store
    (next r, { s with store })
  | (keys next, s) =>
    let (r, store) := RecordStore.keys s.store
    (next (r.map Listing.keys), { s with store }.record (Session.listed r))
  | (draw count next, s) =>
    (next (s.entropy.peek count), { s with entropy := s.entropy.advance count })
  | (mint next, s) => (next (s.ids.headD ""), { s with ids := s.ids.tail })
  | (log event next, s) => (next (), s.record [event])

/-- What is left of a program, and the session, after so many calls. -/
def calls [RecordStore σ] (n : Nat) (p : Program α) (s : Session σ) : Program α × Session σ :=
  step^[n] (p, s)

theorem calls_succ [RecordStore σ] (n : Nat) (p : Program α) (s : Session σ) :
    p.calls (n + 1) s = (step (p, s)).1.calls n (step (p, s)).2 :=
  Function.iterate_succ_apply step n (p, s)

/-- A program goes on from where the one before it has come to. -/
theorem run_bind [RecordStore σ] (p : Program α) (f : α → Program β) (s : Session σ) :
    (p.bind f).run s = (f (p.run s).1).run (p.run s).2 := by
  induction p generalizing s with
  | done a => rfl
  | get key next ih => exact ih _ _
  | set key value next ih => exact ih _ _
  | delete key next ih => exact ih _ _
  | keys next ih => exact ih _ _
  | draw count next ih => exact ih _ _
  | mint next ih => exact ih _ _
  | log event next ih => exact ih _ _

/-- What is left of a program after some calls runs to the same end. -/
theorem run_calls [RecordStore σ] (n : Nat) (p : Program α) (s : Session σ) :
    (p.calls n s).1.run (p.calls n s).2 = p.run s := by
  induction n generalizing p s with
  | zero => rfl
  | succ n ih =>
    rw [calls_succ, ih]
    cases p <;> rfl

theorem calls_add [RecordStore σ] (m n : Nat) (p : Program α) (s : Session σ) :
    p.calls (m + n) s = (p.calls n s).1.calls m (p.calls n s).2 :=
  Function.iterate_add_apply step m n (p, s)

/-- As long as it has more to do, what comes first in a program makes its calls as it does alone. -/
theorem calls_bind [RecordStore σ] {n : Nat} {p p' : Program β} (f : β → Program α)
    {s t : Session σ} (h : p.calls n s = (p', t)) (hp : ∀ b, p' ≠ done b) :
    (p.bind f).calls n s = (p'.bind f, t) := by
  induction n generalizing p s with
  | zero =>
    cases h
    rfl
  | succ n ih =>
    rw [calls_succ] at h ⊢
    cases p with
    | done b =>
      have hdone : ∀ k, (done b).calls k s = (done b, s) := fun k =>
        Function.iterate_fixed (f := step) rfl k
      cases h.symm.trans (hdone n)
      exact absurd rfl (hp b)
    | _ => exact ih h

/-- What comes first in a program is a matter of finitely many calls. -/
theorem exists_calls_bind [RecordStore σ] (p : Program β) (f : β → Program α) (s : Session σ) :
    ∃ n, (p.bind f).calls n s = (f (p.run s).1, (p.run s).2) := by
  induction p generalizing s with
  | done b => exact ⟨0, rfl⟩
  | get key next ih =>
    obtain ⟨n, hn⟩ := ih (RecordStore.get key s.store).1
      { s with store := (RecordStore.get key s.store).2 }
    exact ⟨n + 1, hn⟩
  | set key value next ih =>
    obtain ⟨n, hn⟩ := ih (RecordStore.set key value s.store).1
      { s with store := (RecordStore.set key value s.store).2 }
    exact ⟨n + 1, hn⟩
  | delete key next ih =>
    obtain ⟨n, hn⟩ := ih (RecordStore.delete key s.store).1
      { s with store := (RecordStore.delete key s.store).2 }
    exact ⟨n + 1, hn⟩
  | keys next ih =>
    obtain ⟨n, hn⟩ := ih ((RecordStore.keys s.store).1.map Listing.keys)
      ({ s with store := (RecordStore.keys s.store).2 }.record
        (Session.listed (RecordStore.keys s.store).1))
    exact ⟨n + 1, hn⟩
  | draw count next ih =>
    obtain ⟨n, hn⟩ := ih (s.entropy.peek count) { s with entropy := s.entropy.advance count }
    exact ⟨n + 1, hn⟩
  | mint next ih =>
    obtain ⟨n, hn⟩ := ih (s.ids.headD "") { s with ids := s.ids.tail }
    exact ⟨n + 1, hn⟩
  | log event next ih =>
    obtain ⟨n, hn⟩ := ih () (s.record [event])
    exact ⟨n + 1, hn⟩

/-- A run to the end is a matter of finitely many calls. -/
theorem exists_calls_eq_run [RecordStore σ] (p : Program α) (s : Session σ) :
    ∃ n, p.calls n s = (done (p.run s).1, (p.run s).2) := by
  obtain ⟨n, hn⟩ := exists_calls_bind p done s
  exact ⟨n, by rwa [bind_done] at hn⟩

variable {fails : Prop} {ok : Records → Prop} {post : α → Session Records → Prop}

/-- Whatever changes fail, if any may, the store is `ok` after every change and the program ends as
`post` says. -/
def Assures (fails : Prop) (ok : Records → Prop) :
    Program α → (α → Session Records → Prop) → Session Records → Prop
  | done a, post, s => post a s
  | get key next, post, s => (next (.ok s.store[key]?)).Assures fails ok post s
  | set key value next, post, s =>
    (fails → ∀ fault, (next (.error fault)).Assures fails ok post s) ∧
      ok (s.store.insert key value) ∧
      (next (.ok ())).Assures fails ok post { s with store := s.store.insert key value }
  | delete key next, post, s =>
    (fails → ∀ fault, (next (.error fault)).Assures fails ok post s) ∧
      ok (s.store.erase key) ∧
      (next (.ok ())).Assures fails ok post { s with store := s.store.erase key }
  | keys next, post, s => (next (.ok s.store.keys)).Assures fails ok post s
  | draw count next, post, s =>
    (next (s.entropy.peek count)).Assures fails ok post
      { s with entropy := s.entropy.advance count }
  | mint next, post, s => (next (s.ids.headD "")).Assures fails ok post { s with ids := s.ids.tail }
  | log event next, post, s => (next ()).Assures fails ok post (s.record [event])

theorem assures_bind {p : Program β} {f : β → Program α} {s : Session Records}
    (h : p.Assures fails ok (fun b s => (f b).Assures fails ok post s) s) :
    (p.bind f).Assures fails ok post s := by
  induction p generalizing s with
  | done b => exact h
  | get key next ih => exact ih _ h
  | set key value next ih => exact ⟨fun hf fault => ih _ (h.1 hf fault), h.2.1, ih _ h.2.2⟩
  | delete key next ih => exact ⟨fun hf fault => ih _ (h.1 hf fault), h.2.1, ih _ h.2.2⟩
  | keys next ih => exact ih _ h
  | draw count next ih => exact ih _ h
  | mint next ih => exact ih _ h
  | log event next ih => exact ih _ h

theorem Assures.mono {ok' : Records → Prop} {post' : α → Session Records → Prop} {p : Program α}
    {s : Session Records} (h : p.Assures fails ok post s) (hok : ∀ r, ok r → ok' r)
    (hpost : ∀ a s, post a s → post' a s) : p.Assures fails ok' post' s := by
  induction p generalizing s with
  | done a => exact hpost a s h
  | get key next ih => exact ih _ h
  | set key value next ih =>
    exact ⟨fun hf fault => ih _ (h.1 hf fault), hok _ h.2.1, ih _ h.2.2⟩
  | delete key next ih =>
    exact ⟨fun hf fault => ih _ (h.1 hf fault), hok _ h.2.1, ih _ h.2.2⟩
  | keys next ih => exact ih _ h
  | draw count next ih => exact ih _ h
  | mint next ih => exact ih _ h
  | log event next ih => exact ih _ h

/-- What is assured twice is assured at once. -/
theorem Assures.and {ok' : Records → Prop} {post' : α → Session Records → Prop} {p : Program α}
    {s : Session Records} (h : p.Assures fails ok post s) (h' : p.Assures fails ok' post' s) :
    p.Assures fails (fun r => ok r ∧ ok' r) (fun a t => post a t ∧ post' a t) s := by
  induction p generalizing s with
  | done a => exact ⟨h, h'⟩
  | get key next ih => exact ih _ h h'
  | set key value next ih =>
    exact ⟨fun hf fault => ih _ (h.1 hf fault) (h'.1 hf fault), ⟨h.2.1, h'.2.1⟩, ih _ h.2.2 h'.2.2⟩
  | delete key next ih =>
    exact ⟨fun hf fault => ih _ (h.1 hf fault) (h'.1 hf fault), ⟨h.2.1, h'.2.1⟩, ih _ h.2.2 h'.2.2⟩
  | keys next ih => exact ih _ h h'
  | draw count next ih => exact ih _ h h'
  | mint next ih => exact ih _ h h'
  | log event next ih => exact ih _ h h'

private theorem record_listed (s : Session Unreliable) (keys : List String) :
    s.record (Session.listed (.ok ⟨keys, []⟩)) = s := by
  simp [Session.record, Session.listed]

private theorem mayFail_of_step {p : Program α} {s : Session Unreliable}
    (h : (Program.step (p, s)).2.store.MayFail) : s.store.MayFail := by
  cases p with
  | set key value next => exact Unreliable.mayFail_of_change (f := (·.insert key value)) h
  | delete key next => exact Unreliable.mayFail_of_change (f := (·.erase key)) h
  | _ => exact h

theorem mayFail_of_calls (n : Nat) (p : Program α) (s : Session Unreliable)
    (h : (p.calls n s).2.store.MayFail) : s.store.MayFail := by
  induction n generalizing p s with
  | zero => exact h
  | succ n ih =>
    rw [calls_succ] at h
    exact mayFail_of_step (ih _ _ h)

/-- What is assured still is after a call, and the store is as it was or `ok`. -/
theorem Assures.step {p : Program α} {s : Session Unreliable}
    (h : p.Assures fails ok post s.bare) (hf : s.store.MayFail → fails) :
    (Program.step (p, s)).1.Assures fails ok post (Program.step (p, s)).2.bare ∧
      ((Program.step (p, s)).2.store.records = s.store.records ∨
        ok (Program.step (p, s)).2.store.records) := by
  cases p with
  | done a => exact ⟨h, .inl rfl⟩
  | get key next => exact ⟨h, .inl rfl⟩
  | set key value next =>
    simp only [Program.step, RecordStore.set, Unreliable.change]
    split
    · exact ⟨h.2.2, .inr h.2.1⟩
    · next fault hc => exact ⟨h.1 (hf ⟨_, fault, Nat.le_refl _, hc⟩) _, .inl rfl⟩
  | delete key next =>
    simp only [Program.step, RecordStore.delete, Unreliable.change]
    split
    · exact ⟨h.2.2, .inr h.2.1⟩
    · next fault hc => exact ⟨h.1 (hf ⟨_, fault, Nat.le_refl _, hc⟩) _, .inl rfl⟩
  | keys next =>
    simp only [Program.step, RecordStore.keys]
    rw [record_listed]
    exact ⟨h, .inl rfl⟩
  | draw count next => exact ⟨h, .inl rfl⟩
  | mint next => exact ⟨h, .inl rfl⟩
  | log event next => exact ⟨h, .inl rfl⟩

/-- Wherever the program is cut short, the store is `ok`, and what is left still ends as assured. -/
theorem assures_calls {p : Program α} {s : Session Unreliable} (h : p.Assures fails ok post s.bare)
    (hf : s.store.MayFail → fails) (hs : ok s.store.records) (n : Nat) :
    (p.calls n s).1.Assures fails ok post (p.calls n s).2.bare ∧
      ok (p.calls n s).2.store.records := by
  induction n generalizing p s with
  | zero => exact ⟨h, hs⟩
  | succ n ih =>
    rw [calls_succ]
    obtain ⟨hstep, hrecords⟩ := h.step hf
    refine ih hstep (fun hm => hf (mayFail_of_step hm)) ?_
    rcases hrecords with he | he
    · rwa [he]
    · exact he

theorem post_of_run {p : Program α} {s : Session Unreliable} (h : p.Assures fails ok post s.bare)
    (hf : s.store.MayFail → fails) (hs : ok s.store.records) :
    post (p.run s).1 (p.run s).2.bare := by
  obtain ⟨n, hn⟩ := exists_calls_eq_run p s
  have hp := (assures_calls h hf hs n).1
  rw [hn] at hp
  exact hp

theorem mayFail_of_run (p : Program α) (s : Session Unreliable) (h : (p.run s).2.store.MayFail) :
    s.store.MayFail := by
  obtain ⟨n, hn⟩ := exists_calls_eq_run p s
  refine mayFail_of_calls n p s ?_
  rwa [hn]

/-- As long as no change fails, a run is the one on the records alone. -/
theorem run_of_not_mayFail (p : Program α) {s : Session Unreliable} (h : ¬ s.store.MayFail) :
    (p.run s).1 = (p.run s.bare).1 ∧ (p.run s).2.bare = (p.run s.bare).2 := by
  induction p generalizing s with
  | done a => exact ⟨rfl, rfl⟩
  | get key next ih => exact ih _ h
  | set key value next ih =>
    have hrest := mt (Unreliable.mayFail_of_change (f := (·.insert key value))) h
    rw [Unreliable.change_of_not_mayFail h] at hrest
    simp only [run, RecordStore.set, Unreliable.change_of_not_mayFail h]
    exact ih _ (s := { s with store := _ }) hrest
  | delete key next ih =>
    have hrest := mt (Unreliable.mayFail_of_change (f := (·.erase key))) h
    rw [Unreliable.change_of_not_mayFail h] at hrest
    simp only [run, RecordStore.delete, Unreliable.change_of_not_mayFail h]
    exact ih _ (s := { s with store := _ }) hrest
  | keys next ih =>
    simp only [run, RecordStore.keys]
    exact ih _ (s := s.record (Session.listed (.ok ⟨s.store.records.keys, []⟩))) h
  | draw count next ih => exact ih _ (s := { s with entropy := s.entropy.advance count }) h
  | mint next ih => exact ih _ (s := { s with ids := s.ids.tail }) h
  | log event next ih => exact ih _ (s := s.record [event]) h

/-- On records that never fail the program ends as assured. -/
theorem post_of_run_records {p : Program α} {s : Session Records} (h : p.Assures False ok post s) :
    post (p.run s).1 (p.run s).2 := by
  induction p generalizing s with
  | done a => exact h
  | get key next ih => exact ih _ h
  | set key value next ih => exact ih _ h.2.2
  | delete key next ih => exact ih _ h.2.2
  | keys next ih =>
    have hl : ({ s with store := s.store } : Session Records).record
        (Session.listed (.ok ⟨s.store.keys, []⟩)) = s := by
      simp [Session.record, Session.listed]
    simp only [run, RecordStore.keys]
    rw [hl]
    exact ih _ h
  | draw count next ih => exact ih _ h
  | mint next ih => exact ih _ h
  | log event next ih => exact ih _ h

end Program
end PhraseVault.Vault
