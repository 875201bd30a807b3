import PhraseVault.Proofs.Vault.Filing
import PhraseVault.Proofs.Vault.Operations
import PhraseVault.Proofs.Vault.Still

/-!
# Vaults in a directory

A directory of files houses a vault when its records, with nothing staged among them, keep what the
vault has. There an operation that is refused leaves the files as they are, and one that is not has
its effect, unless some name has no room in the directory.
-/
namespace PhraseVault

namespace FileStore

theorem root_change (f : FileStore) (g : FileSystem → Except IoFault Unit × FileSystem) :
    (f.change g).2.root = f.root := rfl

theorem root_run (step : Step) (f : FileStore) : (step.run f).2.root = f.root := by
  cases step <;> exact root_change f _

theorem root_runSteps (steps : List Step) (f : FileStore) : (runSteps steps f).2.root = f.root := by
  induction steps generalizing f with
  | nil => rfl
  | cons step steps ih =>
    have hstep := root_run step f
    rw [runSteps]
    generalize step.run f = after at hstep
    obtain ⟨r, g⟩ := after
    cases r with
    | ok _ => exact (ih g).trans hstep
    | error _ => exact hstep

theorem root_delete (key : String) (f : FileStore) : (f.delete key).2.root = f.root := by
  rw [FileStore.delete]
  split
  · exact root_change f _
  · rfl

/-- The credential that can be read in a directory. -/
def stored? (f : FileStore) : Option Credential :=
  match f.get Key.credential with
  | .ok (some bytes) => (Credential.read bytes).toOption
  | _ => none

/-- Whether the credential in a directory accepts a candidate. -/
def accepts (f : FileStore) (candidate : String) : Bool :=
  f.stored?.any fun d => (d.accepts candidate).toOption.getD false

variable {f : FileStore} {y : Records} {d : Credential}

theorem stored?_eq_some (h : f.Holds y) : f.stored? = some d ↔ Vault.Stored y d := by
  rw [stored?, h.get (by decide)]
  constructor
  · intro hd
    cases hb : y[Key.credential]? with
    | none => simp [hb] at hd
    | some bytes =>
      simp only [hb] at hd
      cases hr : Credential.read bytes with
      | error fault => simp [hr, Except.toOption] at hd
      | ok c =>
        simp only [hr, Except.toOption, Option.some.injEq] at hd
        exact ⟨bytes, hb, hd ▸ hr⟩
  · rintro ⟨bytes, hb, hr⟩
    simp only [hb, hr, Except.toOption]

end FileStore

namespace Vault
open Vault.Action

/-- The records of a directory keep what a vault has, and nothing is staged. -/
structure Houses (root : Path) (f : FileStore) (v : Option Contents) : Prop where
  root_eq : f.root = root
  exists_records : ∃ y, f.Holds y ∧ Orderly y ∧ Represents y v

/-- Whichever of some candidates the credential accepts derives the key of the phrases. -/
def Fair (f : FileStore) (v : Option Contents) (candidates : List String) : Prop :=
  ∀ c, v = some c → ∀ d, f.stored? = some d → ∀ candidate ∈ candidates,
    d.accepts candidate = .ok true → d.cipherKey candidate = d.cipherKey c.password

theorem Fair.mono {f : FileStore} {v : Option Contents} {candidates others : List String}
    (h : Fair f v candidates) (hs : others ⊆ candidates) : Fair f v others :=
  fun c hc d hd candidate hm => h c hc d hd candidate (hs hm)

namespace Operation

/-- Some name that an operation has to write has no room in a directory. -/
def Crowded (v : Option Contents) : Operation → Prop
  | sealFor owner _ _ => ¬ Fits (Key.phrase owner)
  | changePassword _ _ => ∃ owner ∈ phrasesOf v, ¬ Fits (Key.stagedPhrase owner)
  | _ => False

/-- How an operation ends over files that only looks. -/
def Sees (v : Option Contents) (op : Operation) (f : FileStore) (r : Except Fault Answer)
    (f' : FileStore) : Prop :=
  f' = f ∧ match op.refusal f.accepts v with
    | some fault => r = .error fault
    | none => ∃ a, r = .ok a ∧ op.Answers f.accepts v a

/-- How an operation ends over files: refused, with its effect, or because a name is too long. -/
def Ends (v : Option Contents) (op : Operation) (f : FileStore) (r : Except Fault Answer)
    (f' : FileStore) : Prop :=
  match op.refusal f.accepts v with
  | some fault => r = .error fault ∧ f' = f
  | none =>
    (∃ a, r = .ok a ∧ op.Answers f.accepts v a ∧ Houses f.root f' (op.effect v)) ∨
      op.Crowded v ∧ r = .error (.io .nameTooLong) ∧ Houses f.root f' v

variable {v : Option Contents} {op : Operation} {f f' : FileStore}

theorem Ends.ok {a : Answer} (h : op.Ends v f (.ok a) f') :
    op.refusal f.accepts v = none ∧ op.Answers f.accepts v a ∧ Houses f.root f' (op.effect v) := by
  rw [Ends] at h
  cases hr : op.refusal f.accepts v with
  | some fault =>
    rw [hr] at h
    cases h.1
  | none =>
    rw [hr] at h
    rcases h with ⟨a', ha, h⟩ | ⟨-, he, -⟩
    · cases ha
      exact ⟨rfl, h⟩
    · cases he

/-- Only where a name is too long may an operation that fails have changed the files. -/
theorem Ends.error {fault : Fault} (h : op.Ends v f (.error fault) f') :
    f' = f ∨ fault = .io .nameTooLong ∧ Houses f.root f' v := by
  rw [Ends] at h
  cases hr : op.refusal f.accepts v with
  | some fault' =>
    rw [hr] at h
    exact .inl h.2
  | none =>
    rw [hr] at h
    rcases h with ⟨a, ha, -⟩ | ⟨-, he, hf⟩
    · cases ha
    · cases he
      exact .inr ⟨rfl, hf⟩

theorem Ends.of_room {r : Except Fault Answer} (h : op.Ends v f r f')
    (hr : op.refusal f.accepts v = none) (hc : ¬ op.Crowded v) : ∃ a, r = .ok a := by
  rw [Ends, hr] at h
  rcases h with ⟨a, ha, -⟩ | ⟨hcrowded, -⟩
  · exact ⟨a, ha⟩
  · exact absurd hcrowded hc

theorem Ends.refused {r : Except Fault Answer} {fault : Fault} (h : op.Ends v f r f')
    (hr : op.refusal f.accepts v = some fault) : r = .error fault ∧ f' = f := by
  rwa [Ends, hr] at h

end Operation

namespace Program
variable {α : Type} {p : Program α} {post : α → Session Records → Prop} {mid : α → Prop}

theorem root_run (p : Program α) (s : Session FileStore) : (p.run s).2.store.root = s.store.root := by
  induction p generalizing s with
  | done a => rfl
  | get key next ih => exact ih _ s
  | set key value next ih =>
    have hset : (s.store.set key value).2.root = s.store.root := FileStore.root_runSteps _ s.store
    simp only [run, RecordStore.set]
    generalize s.store.set key value = after at hset
    obtain ⟨r, store⟩ := after
    exact (ih _ { s with store }).trans hset
  | delete key next ih =>
    have hdelete := FileStore.root_delete key s.store
    simp only [run, RecordStore.delete]
    generalize s.store.delete key = after at hdelete
    obtain ⟨r, store⟩ := after
    exact (ih _ { s with store }).trans hdelete
  | keys next ih => exact ih _ (s.record _)
  | draw count next ih => exact ih _ { s with entropy := s.entropy.advance count }
  | mint next ih => exact ih _ { s with ids := s.ids.tail }
  | log event next ih => exact ih _ (s.record [event])

/-- A program that assures that it changes nothing leaves the files as they are. -/
theorem Assures.store_run_files {s : Session FileStore} {x : Session Records}
    (h : p.Assures False (fun _ => False) post x) (hg : p.Guards mid) (hholds : s.store.Holds x.store)
    (ho : Orderly x.store) (he : s.entropy = x.entropy) (hi : s.ids = x.ids) :
    (p.run s).2.store = s.store := by
  induction p generalizing s x with
  | done a => rfl
  | get key next ih =>
    obtain ⟨hk, hg⟩ := hg
    simp only [run, RecordStore.get, hholds.get hk]
    exact ih _ h (hg _ fun value hv => ho key value (Except.ok.inj hv)) hholds ho he hi
  -- a change would have to leave records that nothing satisfies
  | set key value next ih => exact h.2.1.elim
  | delete key next ih => exact h.2.1.elim
  | keys next ih =>
    simp only [run, RecordStore.keys, hholds.keys]
    exact ih _ h (hg _) (s := s.record _) hholds ho he hi
  | draw count next ih =>
    simp only [run, he]
    exact ih _ h (hg _ (Entropy.length_peek _ _)) hholds ho rfl hi
  | mint next ih =>
    simp only [run, hi]
    exact ih _ h (hg _) hholds ho he rfl
  | log event next ih => exact ih _ h hg (s := s.record [event]) hholds ho he hi

end Program

theorem Session.record_nil {σ : Type} (s : Session σ) : s.record [] = s := by
  rw [record, List.append_nil]

namespace Houses
variable {root : Path} {f : FileStore} {v : Option Contents} {y : Records}

theorem empty (h : f.Holds ∅) : Houses f.root f none := ⟨rfl, ∅, h, .empty, rfl⟩

/-- A session over a vault that is housed, with its records in memory. -/
theorem exists_filed {s : Session FileStore} (h : Houses root s.store v) :
    ∃ l, Filed s l ∧ Represents l.store.records v := by
  obtain ⟨-, y, hholds, ho, hv⟩ := h
  exact ⟨⟨⟨y⟩, s.entropy, s.ids, s.log⟩, ⟨hholds, ho, rfl, rfl, rfl⟩, hv⟩

end Houses

namespace Filed
variable {s : Session FileStore} {l : Session Limited} {v : Option Contents}

theorem houses (h : Filed s l) (hv : Represents l.store.records v) : Houses s.store.root s.store v :=
  ⟨rfl, l.store.records, h.holds, h.orderly, hv⟩

theorem unstaged (h : Represents l.store.records v) :
    l.unlimited.store[Key.stagedCredential]? = none :=
  h.settles.stagedCredential

/-- A credential that is made for a password accepts candidates or does not. -/
theorem accepts_eq (h : Filed s l) {d : Credential} {c : Contents}
    (hd : Contains l.store.records d c) (candidate : String) :
    d.accepts candidate = .ok (s.store.accepts candidate) := by
  obtain ⟨salt, keySalt, he⟩ := hd.made
  have haccepts := Credential.accepts_create c.password salt keySalt candidate
  rw [← he] at haccepts
  rw [FileStore.accepts, (FileStore.stored?_eq_some h.holds).mpr hd.stored, Option.any_some,
    haccepts]
  rfl

theorem judged (h : Filed s l) (hv : Represents l.store.records v) {op : Operation}
    (hf : Fair s.store v op.candidates) : op.Judged s.store.accepts l.store.records v := by
  rintro c rfl d hd candidate hc
  obtain ⟨e, he⟩ := hv
  obtain rfl := hd.unique he.stored
  have haccepts := h.accepts_eq he candidate
  refine ⟨haccepts, fun ha => ?_⟩
  rw [ha] at haccepts
  exact hf c rfl d ((FileStore.stored?_eq_some h.holds).mpr hd) candidate hc haccepts

variable {α : Type} {op : Operation} {act : Action α} {mid : α → Prop}
variable {post : Except Fault α → Session Records → Prop}

/-- What an action assures that changes nothing is how it ends over files. -/
theorem run_of_unchanged (h : Filed s l) (hg : Action.Guards act mid)
    (ha : Action.Assures False (fun _ => False) act post l.unlimited) :
    (act.run.run s).2.store = s.store ∧
      ∃ l', Filed (act.run.run s).2 l' ∧ post (act.run.run s).1 l'.unlimited :=
  ⟨Program.Assures.store_run_files ha hg h.holds h.orderly h.entropy h.ids,
    h.post_of_run hg (ha.mono (fun _ => False.elim) fun _ _ hp => hp)⟩

/-- An action that changes nothing, with what it comes to and what it logs. -/
theorem run_eq_of_unchanged (h : Filed s l) (hg : Action.Guards act mid) {r : Except Fault α}
    {events : List Event}
    (ha : Action.Assures False (fun _ => False) act
      (fun r' t => r' = r ∧ t = l.unlimited.record events) l.unlimited) :
    act.run.run s = (r, s.record events) := by
  obtain ⟨hstore, l', hl', hr, ht⟩ := h.run_of_unchanged hg ha
  have hentropy := hl'.entropy.trans ((congrArg Session.entropy ht).trans h.entropy.symm)
  have hids := hl'.ids.trans ((congrArg Session.ids ht).trans h.ids.symm)
  have hlog : (act.run.run s).2.log = s.log ++ events := by
    rw [h.log]
    exact hl'.log.trans (congrArg Session.log ht)
  generalize act.run.run s = after at *
  obtain ⟨r', store, entropy, ids, log⟩ := after
  cases hr
  cases hstore
  cases hentropy
  cases hids
  cases hlog
  rfl

theorem run_eq_of_silent (h : Filed s l) (hg : Action.Guards act mid) {r : Except Fault α}
    (ha : Action.Assures False (fun _ => False) act (fun r' t => r' = r ∧ t = l.unlimited)
      l.unlimited) : act.run.run s = (r, s) := by
  have hrun : act.run.run s = (r, s.record []) :=
    h.run_eq_of_unchanged hg (by rwa [Session.record_nil])
  rwa [Session.record_nil] at hrun

section
variable (h : Filed s l) (hg : Action.Guards act mid)
include h hg

/-- An operation that changes nothing when it is refused. -/
theorem ends_of_refused {fault : Fault} {g : α → Answer}
    (hr : op.refusal s.store.accepts v = some fault)
    (ha : Action.Assures False (fun _ => False) act (fun r _ => r = .error fault) l.unlimited) :
    op.Ends v s.store ((act.run.run s).1.map g) (act.run.run s).2.store := by
  obtain ⟨hstore, _, -, he⟩ := h.run_of_unchanged hg ha
  rw [Operation.Ends, hr, he]
  exact ⟨rfl, hstore⟩

/-- An operation that only looks. -/
theorem sees_of_looking {ids : List String} {g : α → Answer}
    (ha : Action.Assures False (fun _ => False) act
      (fun r t => op.Meets False s.store.accepts v ids (r.map g) t) l.unlimited) :
    op.Sees v s.store ((act.run.run s).1.map g) (act.run.run s).2.store := by
  obtain ⟨hstore, _, -, -, hmeets⟩ := h.run_of_unchanged hg ha
  replace hmeets := hmeets.resolve_left fun hf => hf.1
  refine ⟨hstore, ?_⟩
  cases hr : op.refusal s.store.accepts v with
  | some fault =>
    rw [hr] at hmeets
    exact hmeets.1
  | none =>
    rw [hr] at hmeets
    obtain ⟨a, hok, hanswers, -⟩ := hmeets
    exact ⟨a, hok, hanswers⟩

/-- An operation that is not refused and has room for whatever it writes. -/
theorem ends_of_room {ids : List String} {ok : Records → Prop} {g : α → Answer}
    (hr : op.refusal s.store.accepts v = none)
    (ha : Action.Assures False ok act
      (fun r t => op.Meets False s.store.accepts v ids (r.map g) t) l.unlimited)
    (hroom : Action.Assures False Filable act (fun _ _ => True) l.unlimited) :
    op.Ends v s.store ((act.run.run s).1.map g) (act.run.run s).2.store := by
  have hboth : Action.Assures False Filable act
      (fun r t => op.Meets False s.store.accepts v ids (r.map g) t) l.unlimited :=
    Program.Assures.mono (Program.Assures.and ha hroom) (fun _ hz => hz.2) fun _ _ hp => hp.1
  obtain ⟨l', hl', -, hmeets⟩ := h.post_of_run hg hboth
  replace hmeets := hmeets.resolve_left fun hf => hf.1
  rw [hr] at hmeets
  obtain ⟨a, hok, hanswers, -, hv'⟩ := hmeets
  rw [Operation.Ends, hr]
  refine .inl ⟨a, hok, hanswers, ?_⟩
  rw [← Program.root_run act.run s]
  exact hl'.houses (hv'.resolve_right id)

end

end Filed

namespace Action
variable {β : Type} {fails : Prop} {ok : Records → Prop} {s : Session Records}
variable {agrees : String → Bool} {v : Option Contents} {fault : Fault}

/-- What an action assures that only looks, it assures without any change. -/
theorem assures_looking {post : Except Fault β → Session Records → Prop}
    (hs : s.store[Key.stagedCredential]? = none) {f : Unit → Action β} (hf : Still (f ()))
    (h : Assures fails ok (shared >>= f) post s) :
    Assures False (fun _ => False) (shared >>= f) post s :=
  (assures_shared_bind hs f).mpr (hf.assures_congr ((assures_shared_bind hs f).mp h))

section Refused
variable (hv : Represents s.store v)
include hv

theorem assures_setPassword_of_refused {password : String}
    (hr : (Operation.setPassword password).refusal agrees v = some fault) :
    Assures False (fun _ => False) (setPassword password) (fun r _ => r = .error fault) s := by
  have hlength := hv.length_owners
  rw [setPassword, exclusive, assures_settle_bind hv.settles.stagedCredential, assures_sealedOwners]
  rw [Operation.refusal] at hr
  by_cases hsize : (phrasesOf v).size = 0
  · rw [hsize, List.length_eq_zero_iff] at hlength
    obtain ⟨stored, hload⟩ := exists_loadCredential (s := s) hv
    rw [if_neg (not_not.mpr hsize)] at hr
    rw [if_neg (not_not.mpr hlength), hload]
    by_cases hp : password = ""
    · rw [if_pos hp] at hr
      rw [hp, assures_newCredential_empty, Option.some.inj hr]
    · rw [if_neg hp] at hr
      cases hr
  · rw [if_pos hsize, ← hlength] at hr
    have hne : Records.owners s.store ≠ [] := by
      rwa [ne_eq, ← List.length_eq_zero_iff, hlength]
    rw [if_pos hne, assures_throw_bind, Option.some.inj hr]

theorem assures_remove_of_refused {owner : String}
    (hr : (Operation.remove owner).refusal agrees v = some fault) :
    Assures False (fun _ => False) (remove owner) (fun r _ => r = .error fault) s := by
  rw [remove, exclusive, assures_settle_bind hv.settles.stagedCredential, assures_fetch_bind]
  rw [Operation.refusal] at hr
  split at hr
  · next hn =>
    rw [← hv.mem_phrase, ← Records.getElem?_eq_none_iff] at hn
    rw [hn]
    exact congrArg Except.error (Option.some.inj hr)
  · cases hr

end Refused

section Room
variable (hs : s.store[Key.stagedCredential]? = none) (h : Filable s.store)
include hs h

theorem room_setPassword (password : String) :
    Assures False Filable (setPassword password) (fun _ _ => True) s := by
  rw [setPassword, exclusive, assures_settle_bind hs, assures_sealedOwners]
  split
  · exact trivial
  refine assures_still_bind still_loadCredential (fun _ _ _ => trivial) fun _ t ht => ?_
  refine assures_still_bind (still_newCredential password) (fun _ _ _ => trivial) fun c u hu => ?_
  rw [saveCredential, assures_put_bind, assures_report, hu, ht]
  exact ⟨False.elim, h.insert (by decide) (.of_credential c (.inl rfl)), trivial⟩

theorem room_remove (owner : String) :
    Assures False Filable (remove owner) (fun _ _ => True) s := by
  rw [remove, exclusive, assures_settle_bind hs, assures_fetch_bind]
  split
  · exact trivial
  · rw [assures_erase_bind, assures_report]
    exact ⟨False.elim, h.erase _, trivial⟩

theorem room_wipe : Assures False Filable wipe (fun _ _ => True) s := by
  rw [wipe, exclusive, assures_settle_bind hs, assures_sealedOwners]
  generalize (Records.owners s.store).length = count
  clear hs
  induction Records.owners s.store generalizing s with
  | nil =>
    rw [deletePhrases, pure_bind, assures_erase_bind, assures_report]
    exact ⟨False.elim, h.erase _, trivial⟩
  | cons owner owners ih =>
    rw [deletePhrases, bind_assoc, assures_erase_bind]
    exact ⟨False.elim, h.erase _, ih (h.erase _)⟩

end Room
end Action

namespace Houses
variable {root : Path} {v : Option Contents} {s : Session FileStore}

/-- The password that was set is accepted. -/
theorem accepts_password {c : Contents} (h : Houses root s.store (some c)) :
    s.store.accepts c.password = true := by
  obtain ⟨l, hl, d, hd⟩ := h.exists_filed
  obtain ⟨salt, keySalt, rfl⟩ := hd.made
  have haccepts := Credential.accepts_create_of_normalize_eq
    (rfl : Unicode.normalize c.password = Unicode.normalize c.password) salt keySalt
  exact (Except.ok.inj ((hl.accepts_eq hd c.password).symm.trans haccepts))

section Looking
variable (h : Houses root s.store v)
include h

theorem sees_state :
    Operation.state.Sees v s.store ((Vault.state.run.run s).1.map .state)
      (Vault.state.run.run s).2.store := by
  obtain ⟨l, hl, hv⟩ := h.exists_filed
  refine hl.sees_of_looking guards_state
    (assures_looking (Filed.unstaged hv) (still_bind still_loadCredential fun c => ?_)
      (meets_state hv.settles hv))
  cases c with
  | none => exact still_pure _
  | some c => exact still_bind still_sealedOwners fun _ => still_pure _

theorem sees_owners :
    Operation.owners.Sees v s.store ((owners.run.run s).1.map .list) (owners.run.run s).2.store := by
  obtain ⟨l, hl, hv⟩ := h.exists_filed
  exact hl.sees_of_looking guards_owners
    (assures_looking (Filed.unstaged hv) still_sealedOwners (meets_owners hv.settles hv))

theorem sees_reveal {owner password : String} (hf : Fair s.store v [password]) :
    (Operation.reveal owner password).Sees v s.store
      (((reveal owner password).run.run s).1.map .text)
      ((reveal owner password).run.run s).2.store := by
  obtain ⟨l, hl, hv⟩ := h.exists_filed
  have hj : (Operation.reveal owner password).Judged s.store.accepts l.store.records v :=
    hl.judged hv hf
  exact hl.sees_of_looking (guards_reveal owner password)
    (assures_looking (Filed.unstaged hv) (still_bind still_requireCredential fun c =>
      still_bind (still_requirePhrase owner) fun p => still_openPhrase p c password)
      (meets_reveal hv.settles hv owner password hj))

theorem run_hasPassword : hasPassword.run.run s = (.ok v.isSome, s) := by
  obtain ⟨l, hl, hv⟩ := h.exists_filed
  refine hl.run_eq_of_silent guards_hasPassword ?_
  rw [hasPassword, assures_shared_bind (Filed.unstaged hv), assures_fetch_bind, assures_pure]
  exact ⟨congrArg Except.ok hv.isSome_credential, rfl⟩

/-- A candidate is held against the credential, if there is one. That it is wrong is logged. -/
theorem run_verifyPassword (candidate : String) : (verifyPassword candidate).run.run s =
    if v.isNone then (.error .credentialNotSet, s)
    else if s.store.accepts candidate then (.ok true, s)
    else (.ok false, s.record [.verificationFailed]) := by
  obtain ⟨l, hl, hv⟩ := h.exists_filed
  have hs := Filed.unstaged hv
  have hguards := guards_verifyPassword candidate
  cases v with
  | none =>
    rw [Option.isNone_none, if_pos rfl]
    refine hl.run_eq_of_silent hguards ?_
    rw [verifyPassword, assures_shared_bind hs, assures_requireCredential_none hv.credential_eq_none]
    exact ⟨rfl, rfl⟩
  | some c =>
    obtain ⟨d, hd⟩ := hv
    have haccepts := hl.accepts_eq hd candidate
    rw [Option.isNone_some, if_neg Bool.false_ne_true]
    split
    · next ha =>
      rw [ha] at haccepts
      refine hl.run_eq_of_silent hguards ?_
      rw [verifyPassword, assures_shared_bind hs, assures_requireCredential hd.stored,
        assures_matching haccepts]
      exact ⟨rfl, rfl⟩
    · next ha =>
      rw [Bool.not_eq_true] at ha
      rw [ha] at haccepts
      refine hl.run_eq_of_unchanged hguards ?_
      rw [verifyPassword, assures_shared_bind hs, assures_requireCredential hd.stored,
        assures_matching haccepts]
      exact ⟨rfl, rfl⟩

/-- The phrase of an owner is revealed to whoever has a password that is accepted. -/
theorem run_reveal_of_accepts {owner password text : String} (hf : Fair s.store v [password])
    (ht : (phrasesOf v)[owner]? = some text) (ha : s.store.accepts password = true) :
    ∃ t, (reveal owner password).run.run s = (.ok text, t) ∧ t.store = s.store := by
  have hrefusal : (Operation.reveal owner password).refusal s.store.accepts v = none := by
    have hm : owner ∈ phrasesOf v := by
      rw [← Records.getElem?_ne_none_iff, ht]
      simp
    cases v with
    | none => exact absurd hm Std.ExtTreeMap.not_mem_empty
    | some c => simp [Operation.refusal, hm]
  have hsees : (Operation.reveal owner password).Sees v s.store _ _ := h.sees_reveal hf
  rw [Operation.Sees, hrefusal] at hsees
  obtain ⟨hstore, a, hr, text', rfl, htext⟩ := hsees
  obtain rfl : text = text' := Option.some.inj (ht.symm.trans (htext ha))
  generalize (reveal owner password).run.run s = after at hr hstore
  obtain ⟨r, t⟩ := after
  cases r with
  | ok b =>
    cases hr
    exact ⟨t, rfl, hstore⟩
  | error fault => cases hr

end Looking

section Changing
variable (h : Houses root s.store v)
include h

theorem ends_setPassword (password : String) :
    (Operation.setPassword password).Ends v s.store
      (((setPassword password).run.run s).1.map fun _ => .done)
      ((setPassword password).run.run s).2.store := by
  obtain ⟨l, hl, hv⟩ := h.exists_filed
  cases hr : (Operation.setPassword password).refusal s.store.accepts v with
  | some fault =>
    exact hl.ends_of_refused (guards_setPassword password) hr
      (assures_setPassword_of_refused (s := l.unlimited) hv hr)
  | none =>
    exact hl.ends_of_room (guards_setPassword password) hr
      (meets_setPassword hv.settles hv password False.elim)
      (room_setPassword (Filed.unstaged hv) hl.filable password)

theorem ends_remove (owner : String) :
    (Operation.remove owner).Ends v s.store (((remove owner).run.run s).1.map fun _ => .done)
      ((remove owner).run.run s).2.store := by
  obtain ⟨l, hl, hv⟩ := h.exists_filed
  cases hr : (Operation.remove owner).refusal s.store.accepts v with
  | some fault =>
    exact hl.ends_of_refused (guards_remove owner) hr
      (assures_remove_of_refused (s := l.unlimited) hv hr)
  | none =>
    exact hl.ends_of_room (guards_remove owner) hr (meets_remove hv.settles hv owner)
      (room_remove (Filed.unstaged hv) hl.filable owner)

theorem ends_wipe :
    Operation.wipe.Ends v s.store ((wipe.run.run s).1.map fun _ => .done)
      (wipe.run.run s).2.store := by
  obtain ⟨l, hl, hv⟩ := h.exists_filed
  exact hl.ends_of_room guards_wipe rfl (meets_wipe hv.settles hv)
    (room_wipe (Filed.unstaged hv) hl.filable)

end Changing
end Houses
end Vault
end PhraseVault
