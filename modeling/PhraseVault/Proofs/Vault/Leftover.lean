import PhraseVault.Proofs.Vault.Refusal
import PhraseVault.Proofs.Vault.Simulation

/-!
# A leftover rotation is not seen

Shared access looks for a staged rotation and settles it for as long as there is one. It comes to an
end, as what has been settled is gone. Operations that are opened so, or by settling right away, do
as they would have done with nothing left over.
-/
namespace PhraseVault.Vault
open Vault.Action
variable {α β : Type}

section Loop
variable {σ : Type} [RecordStore σ]

/-- Shared access without a bound on its rounds: it looks for a staged credential, settles, and
looks again. The number is how often it settles. -/
inductive Seeks : ℕ → Session σ → Except Fault Unit → Session σ → Prop
  | unread {s t : Session σ} {fault : Fault}
    (h : (fetch Key.stagedCredential).run.run s = (.error fault, t)) : Seeks 0 s (.error fault) t
  | clear {s t : Session σ} (h : (fetch Key.stagedCredential).run.run s = (.ok none, t)) :
    Seeks 0 s (.ok ()) t
  | stuck {s t u : Session σ} {bytes : Bytes} {fault : Fault}
    (h : (fetch Key.stagedCredential).run.run s = (.ok (some bytes), t))
    (hs : settle.run.run t = (.error fault, u)) : Seeks 1 s (.error fault) u
  | again {n : ℕ} {s t u v : Session σ} {bytes : Bytes} {r : Except Fault Unit}
    (h : (fetch Key.stagedCredential).run.run s = (.ok (some bytes), t))
    (hs : settle.run.run t = (.ok (), u)) (hr : Seeks n u r v) : Seeks (n + 1) s r v

/-- With a bound that is not reached, the bounded access does the same. -/
theorem Seeks.run_sharedFor {n rounds : ℕ} {s t : Session σ} {r : Except Fault Unit}
    (h : Seeks n s r t) (hn : n < rounds) : (sharedFor rounds).run.run s = (r, t) := by
  induction h generalizing rounds with
  | unread h =>
    obtain ⟨rounds, rfl⟩ := Nat.exists_eq_add_of_lt hn
    exact run_bind_error h
  | clear h =>
    obtain ⟨rounds, rfl⟩ := Nat.exists_eq_add_of_lt hn
    exact run_bind_ok h
  | stuck h hs =>
    obtain ⟨rounds, rfl⟩ := Nat.exists_eq_add_of_lt hn
    exact (run_bind_ok h).trans (run_bind_error hs)
  | again h hs _ ih =>
    obtain ⟨rounds, rfl⟩ : ∃ m, rounds = m + 1 := ⟨rounds - 1, by omega⟩
    exact ((run_bind_ok h).trans (run_bind_ok hs)).trans (ih (by omega))

end Loop

section Unreliable
variable {s t : Session Unreliable}

/-- A record that has been deleted is gone. -/
theorem not_mem_of_run_erase {key : String} (h : (erase key).run.run s = (.ok (), t)) :
    key ∉ t.store.records := by
  rw [run_erase, Unreliable.change] at h
  split at h
  · cases h
    rw [← Records.getElem?_eq_none_iff, Records.getElem?_erase, if_pos rfl]
  · cases h

/-- Settling that succeeds leaves no staged credential, whatever there was. -/
theorem not_mem_of_run_settle (h : settle.run.run s = (.ok (), t)) :
    Key.stagedCredential ∉ t.store.records := by
  rw [settle] at h
  obtain ⟨found, u, hfetch, h⟩ := exists_run_bind_ok h
  rw [run_fetch] at hfetch
  cases hfetch
  cases hfound : s.store.records[Key.stagedCredential]? with
  | none =>
    rw [hfound] at h
    cases h
    exact Records.getElem?_eq_none_iff.mp hfound
  | some bytes =>
    -- whatever is read, listed and unstaged, the staged credential is deleted in the end
    rw [hfound] at h
    obtain ⟨staged, _, -, h⟩ := exists_run_bind_ok h
    obtain ⟨stored, _, -, h⟩ := exists_run_bind_ok h
    obtain ⟨keys, _, -, h⟩ := exists_run_bind_ok h
    obtain ⟨⟨⟩, _, -, h⟩ := exists_run_bind_ok h
    obtain ⟨⟨⟩, u, herase, h⟩ := exists_run_bind_ok h
    have hgone := not_mem_of_run_erase herase
    cases h
    exact hgone

theorem of_run_fetch {key : String} {found : Option Bytes}
    (h : (fetch key).run.run s = (.ok found, t)) : s.store.records[key]? = found ∧ t = s :=
  ⟨Except.ok.inj (congrArg Prod.fst h), (congrArg Prod.snd h).symm⟩

theorem Seeks.of_not_mem {n : ℕ} {r : Except Fault Unit} (h : Seeks n s r t)
    (hm : Key.stagedCredential ∉ s.store.records) : n = 0 ∧ r = .ok () ∧ t = s := by
  rw [← Records.getElem?_eq_none_iff] at hm
  cases h with
  | unread h => cases congrArg Prod.fst h
  | clear h => exact ⟨rfl, rfl, (of_run_fetch h).2⟩
  | stuck h => cases hm.symm.trans (of_run_fetch h).1
  | again h => cases hm.symm.trans (of_run_fetch h).1

theorem Seeks.of_mem {n : ℕ} {r : Except Fault Unit} (h : Seeks n s r t)
    (hm : Key.stagedCredential ∈ s.store.records) : n = 1 ∧ settle.run.run s = (r, t) := by
  cases h with
  | unread h => cases congrArg Prod.fst h
  | clear h => exact absurd hm (Records.getElem?_eq_none_iff.mp (of_run_fetch h).1)
  | stuck h hs =>
    obtain ⟨-, rfl⟩ := of_run_fetch h
    exact ⟨rfl, hs⟩
  | again h hs hr =>
    obtain ⟨-, rfl⟩ := of_run_fetch h
    -- what has been settled is gone when it looks again
    obtain ⟨rfl, rfl, rfl⟩ := hr.of_not_mem (not_mem_of_run_settle hs)
    exact ⟨rfl, hs⟩

theorem exists_seeks (s : Session Unreliable) : ∃ n r t, Seeks n s r t := by
  cases hfound : s.store.records[Key.stagedCredential]? with
  | none => exact ⟨0, _, s, .clear (by rw [run_fetch, hfound])⟩
  | some bytes =>
    have hlook : (fetch Key.stagedCredential).run.run s = (.ok (some bytes), s) := by
      rw [run_fetch, hfound]
    rcases hsettle : settle.run.run s with ⟨fault | ⟨⟩, t⟩
    · exact ⟨1, _, t, .stuck hlook hsettle⟩
    · have hgone := Records.getElem?_eq_none_iff.mpr (not_mem_of_run_settle hsettle)
      exact ⟨1, _, t, .again hlook hsettle (.clear (by rw [run_fetch, hgone]))⟩

/-- What comes of the unbounded access, which is what the bounded one does. -/
structure Sought (n : ℕ) (s : Session Unreliable) (r : Except Fault Unit) (t : Session Unreliable) :
    Prop where
  rounds : n ≤ 1
  run_shared : shared.run.run s = (r, t)
  not_mem_of_ok : r = .ok () → Key.stagedCredential ∉ t.store.records
  run_settle_of_error : ∀ fault, r = .error fault → settle.run.run s = (.error fault, t)

theorem Seeks.sought {n : ℕ} {r : Except Fault Unit} (h : Seeks n s r t) : Sought n s r t := by
  by_cases hm : Key.stagedCredential ∈ s.store.records
  · obtain ⟨rfl, hs⟩ := h.of_mem hm
    refine ⟨le_rfl, h.run_sharedFor (by omega), ?_, ?_⟩
    · rintro rfl
      exact not_mem_of_run_settle hs
    · rintro fault rfl
      exact hs
  · obtain ⟨rfl, rfl, rfl⟩ := h.of_not_mem hm
    exact ⟨Nat.zero_le 1, h.run_sharedFor (by omega), fun _ => hm, nofun⟩

end Unreliable

section Records

/-- Sessions that differ in nothing but what has been logged. -/
structure Session.Same {σ : Type} (s t : Session σ) : Prop where
  store : s.store = t.store
  entropy : s.entropy = t.entropy
  ids : s.ids = t.ids

theorem Session.Same.record {σ : Type} {s t : Session σ} (h : s.Same t)
    (events events' : List Event) : (s.record events).Same (t.record events') :=
  ⟨h.store, h.entropy, h.ids⟩

/-- What has been logged makes no difference to a program. -/
theorem Program.run_same {σ : Type} [RecordStore σ] (p : Program α) {s t : Session σ}
    (h : s.Same t) : (p.run s).1 = (p.run t).1 ∧ (p.run s).2.Same (p.run t).2 := by
  induction p generalizing s t with
  | done a => exact ⟨rfl, h⟩
  | get key next ih =>
    simp only [run, h.store]
    exact ih _ ⟨rfl, h.entropy, h.ids⟩
  | set key value next ih =>
    simp only [run, h.store]
    exact ih _ ⟨rfl, h.entropy, h.ids⟩
  | delete key next ih =>
    simp only [run, h.store]
    exact ih _ ⟨rfl, h.entropy, h.ids⟩
  | keys next ih =>
    simp only [run, h.store]
    exact ih _ ⟨rfl, h.entropy, h.ids⟩
  | draw count next ih =>
    simp only [run, h.entropy]
    exact ih _ ⟨h.store, rfl, h.ids⟩
  | mint next ih =>
    simp only [run, h.ids]
    exact ih _ ⟨h.store, h.entropy, rfl⟩
  | log event next ih => exact ih _ (h.record _ _)

/-- Runs that come to the same, but for what has been logged. -/
structure Concur (end₁ end₂ : Except Fault α × Session Records) : Prop where
  result : end₁.1 = end₂.1
  session : end₁.2.Same end₂.2

/-- The one session holds what the other does once its leftover rotation has been settled. -/
structure Session.Ahead (s s' : Session Records) : Prop where
  resolves : Resolves s.store s'.store
  entropy : s'.entropy = s.entropy
  ids : s'.ids = s.ids

variable {s s' u : Session Records}

namespace Action

/-- Started from the one session or from the other, the action does the same. -/
def Unaware (act : Action α) : Prop :=
  ∀ s s' : Session Records, s.Ahead s' → Concur (act.run.run s) (act.run.run s')

/-- The action settles and does nothing else. -/
def Prepares (opening : Action Unit) : Prop :=
  ∀ (s : Session Records) (y : Records), Resolves s.store y →
    Assures False (fun _ => True) opening (Resolving False (fun _ => True) y s) s

theorem prepares_settle : Prepares settle := fun _ _ h =>
  (assures_settle_of_resolves steady_true h trivial).mono (fun _ _ => trivial) fun _ _ hr => hr

theorem prepares_shared : Prepares shared := fun _ _ h =>
  (assures_shared_of_resolves steady_true h trivial).mono (fun _ _ => trivial) fun _ _ hr => hr

theorem Prepares.exists_run {opening : Action Unit} (h : Prepares opening) {y : Records}
    (hy : Resolves s.store y) : ∃ t, opening.run.run s = (.ok (), t) ∧ t.store = y ∧
      t.entropy = s.entropy ∧ t.ids = s.ids := by
  have hend := Program.post_of_run_records (h s y hy)
  rcases hend.outcome with ⟨hr, ht⟩ | ⟨hf, -⟩
  · exact ⟨_, Prod.ext hr rfl, ht, hend.entropy, hend.ids⟩
  · exact hf.elim

/-- What comes after settling goes on from the same. -/
theorem Prepares.unaware {opening : Action Unit} (h : Prepares opening) (f : Unit → Action β) :
    Unaware (opening >>= f) := by
  intro s s' hs
  obtain ⟨t, ht, hstore, hentropy, hids⟩ := h.exists_run hs.resolves
  obtain ⟨t', ht', hstore', hentropy', hids'⟩ := h.exists_run hs.resolves.self
  have hsame : t.Same t' := by
    refine ⟨hstore.trans hstore'.symm, ?_, ?_⟩
    · rw [hentropy, hentropy', hs.entropy]
    · rw [hids, hids', hs.ids]
  rw [run_bind_ok ht, run_bind_ok ht']
  obtain ⟨hr, hend⟩ := Program.run_same (f ()).run hsame
  exact ⟨hr, hend⟩

theorem Unaware.map {act : Action α} (h : Unaware act) (g : α → β) : Unaware (g <$> act) := by
  intro s s' hs
  rw [run_map, run_map]
  exact ⟨congrArg (Except.map g) (h s s' hs).result, (h s s' hs).session⟩

theorem unaware_sealFor {owner phrase password : String} (ho : owner ≠ "") (hb : ¬ isBlank phrase) :
    Unaware (Vault.sealFor owner phrase password) := by
  rw [Vault.sealFor, if_neg ho, if_neg hb]
  exact prepares_settle.unaware _

theorem unaware_program {op : Operation} (hfit : ∀ fault, ¬ op.Unfit fault) :
    Unaware op.program := by
  cases op with
  | hasPassword => exact (prepares_shared.unaware _).map _
  | state => exact (prepares_shared.unaware _).map _
  | setPassword password => exact (prepares_settle.unaware _).map _
  | verifyPassword candidate => exact (prepares_shared.unaware _).map _
  | changePassword current password => exact (prepares_settle.unaware _).map _
  | sealFor owner phrase password =>
    have ho : owner ≠ "" := by
      rintro rfl
      exact hfit _ (.owner phrase password)
    exact (unaware_sealFor ho fun hb => hfit _ (.phrase ho hb password)).map _
  | reveal owner password => exact (prepares_shared.unaware _).map _
  | hasPhrase owner => exact (prepares_shared.unaware _).map _
  | owners => exact (prepares_shared.unaware _).map _
  | remove owner => exact (prepares_settle.unaware _).map _
  | wipe => exact (prepares_settle.unaware _).map _

end Action

theorem Operation.run_of_unfit {op : Operation} {fault : Fault} (h : op.Unfit fault)
    (s : Session Records) : op.program.run.run s = (.error fault, s) := by
  cases h with
  | owner phrase password => rfl
  | phrase ho hb password =>
    rw [program, run_map, Vault.sealFor, if_neg ho, if_pos hb]
    rfl

/-- To seal for an owner that is minted is to mint one and then to seal. -/
theorem Request.run_program (q : Request) (s : Session Records) :
    q.program.run.run s =
      (q.operation s.ids).program.run.run { s with ids := q.idsAfter s.ids } := by
  cases q <;> rfl

theorem Session.Ahead.minted (h : s.Ahead s') (q : Request) :
    ({ s with ids := q.idsAfter s.ids } : Session Records).Ahead
      { s' with ids := q.idsAfter s'.ids } :=
  ⟨h.resolves, h.entropy, congrArg q.idsAfter h.ids⟩

theorem Request.concur {q : Request} (h : s.Ahead s')
    (hfit : ∀ fault, ¬ (q.operation s.ids).Unfit fault) :
    Concur (q.program.run.run s) (q.program.run.run s') := by
  rw [q.run_program, q.run_program, h.ids]
  have hminted := h.minted q
  rw [h.ids] at hminted
  exact unaware_program hfit _ _ hminted

/-- A run of requests comes to the same, and leaves the same once one of them has settled. -/
theorem outcomes_of_ahead (h : s.Ahead s' ∨ s.Same s') (qs : List Request) :
    outcomes s qs = outcomes s' qs ∧
      ((s.after qs).Ahead (s'.after qs) ∨ (s.after qs).Same (s'.after qs)) := by
  induction qs generalizing s s' with
  | nil => exact ⟨rfl, h⟩
  | cons q qs ih =>
    have hstep : (q.program.run.run s).1 = (q.program.run.run s').1 ∧
        ((q.program.run.run s).2.Ahead (q.program.run.run s').2 ∨
          (q.program.run.run s).2.Same (q.program.run.run s').2) := by
      rcases h with h | h
      · by_cases hfit : ∀ fault, ¬ (q.operation s.ids).Unfit fault
        · exact ⟨(q.concur h hfit).result, .inr (q.concur h hfit).session⟩
        · obtain ⟨fault, hunfit⟩ := not_forall_not.mp hfit
          have hunfit' := hunfit
          rw [← h.ids] at hunfit'
          rw [q.run_program, q.run_program, Operation.run_of_unfit hunfit,
            Operation.run_of_unfit hunfit']
          exact ⟨rfl, .inl (h.minted q)⟩
      · exact (Program.run_same q.program.run h).imp_right .inr
    obtain ⟨hr, hend⟩ := hstep
    obtain ⟨hrest, hafter⟩ := ih hend
    exact ⟨congrArg₂ List.cons hr hrest, hafter⟩

end Records

/-- Whatever the records and whichever changes fail, shared access ends after it has settled at most
once, with nothing staged or with the fault of settling. And where settling succeeds, every request
that is fit does what it would have done with the leftover rotation settled, and so does every
run. -/
theorem leftover_invisible :
    (∀ s : Session Unreliable, (∃ n r t, Seeks n s r t) ∧
      ∀ n r t, Seeks n s r t → Sought n s r t) ∧
    ∀ s u s' : Session Records, settle.run.run s = (.ok (), u) → s'.store = u.store →
      s'.entropy = s.entropy → s'.ids = s.ids →
      (∀ q : Request, (∀ fault, ¬ (q.operation s.ids).Unfit fault) →
        Concur (q.program.run.run s) (q.program.run.run s')) ∧
      ∀ qs, outcomes s qs = outcomes s' qs := by
  refine ⟨fun s => ⟨exists_seeks s, fun n r t => Seeks.sought⟩, ?_⟩
  intro s u s' hsettle hstore hentropy hids
  have hresolves := resolves_of_run_settle hsettle
  rw [← hstore] at hresolves
  have hahead : s.Ahead s' := ⟨hresolves, hentropy, hids⟩
  exact ⟨fun q => q.concur hahead, fun qs => (outcomes_of_ahead (.inl hahead) qs).1⟩

/-- A phrase that is still staged is found as if it had been moved; and shared access ends also
where no change succeeds. -/
theorem leftover_invisible_halfway :
    ∃ (s u : Session Records) (l : Session Unreliable), s.store = halfway ⟨"", "", ""⟩ "o" [1] ∧
      settle.run.run s = (.ok (), u) ∧ Key.phrase "o" ∉ s.store ∧
      ((Request.perform (.hasPhrase "o")).program.run.run s).1 = .ok (.flag true) ∧
      l.store.records = s.store ∧ (∀ i, l.store.schedule i = some .full) ∧
      ∃ n r t, Seeks n l r t ∧ n ≤ 1 := by
  have hstaged := staged_halfway ⟨"", "", ""⟩ "o" [1]
  have hstored := stored_halfway ⟨"", "", ""⟩ "o" [1]
  have hb := halfway_stagedPhrase ⟨"", "", ""⟩ "o" [1]
  have hm : Key.phrase "o" ∉ halfway ⟨"", "", ""⟩ "o" [1] := by
    simp [halfway, Std.ExtTreeMap.mem_insert]
  generalize halfway ⟨"", "", ""⟩ "o" [1] = records at hstaged hstored hb hm
  let s : Session Records := ⟨records, ⟨fun _ => 0, 0⟩, [], []⟩
  let l : Session Unreliable := ⟨⟨records, fun _ => some .full, 0⟩, ⟨fun _ => 0, 0⟩, [], []⟩
  obtain ⟨y, hy⟩ := exists_resolves fun _ => ⟨⟨_, hstaged⟩, fun _ => ⟨_, hstored⟩⟩
  obtain ⟨hok, hstore⟩ := hy.run_settle (s := s) rfl
  obtain ⟨hends, hinvisible⟩ := leftover_invisible
  obtain ⟨⟨n, r, t, hseeks⟩, hsought⟩ := hends l
  obtain ⟨hconcur, -⟩ := hinvisible s _ { s with store := y } (Prod.ext hok rfl) hstore.symm rfl rfl
  have hfit : ∀ fault, ¬ (Operation.hasPhrase "o").Unfit fault := by
    intro fault h
    cases h
  refine ⟨s, _, l, rfl, Prod.ext hok rfl, hm, ?_, rfl, fun _ => rfl, n, r, t, hseeks,
    (hsought n r t hseeks).rounds⟩
  rw [(hconcur (.perform (.hasPhrase "o")) hfit).result]
  have hsettled : Assures False (fun _ => True) (Operation.hasPhrase "o").program
      (fun r _ => r = .ok (.flag true)) { s with store := y } := by
    refine assures_map _ ((assures_shared_bind hy.stagedCredential _).mpr ?_)
    have hphrase : y[Key.phrase "o"]? = some [1] := by
      rw [(hy.resolved hstaged.mem).phrase_of_committed ⟨_, hstaged, hstored⟩, hb, Option.some_or]
    rw [assures_fetch_bind, hphrase]
    rfl
  exact Program.post_of_run_records hsettled

end PhraseVault.Vault
