import PhraseVault.Proofs.Vault.Likeness
import PhraseVault.Proofs.Vault.Refinement
import PhraseVault.Proofs.Vault.Tracking

/-!
# Phrases do not leak

Two runs of the same requests that differ in the phrases they seal cannot be told apart by logs, by
results other than revealed texts, or by records other than the ciphers of phrases, whichever changes
fail and wherever the runs are cut short. The ciphers are as long as each other if the phrases are.
-/
namespace PhraseVault.Vault

/-- Sessions whose records only differ in the ciphers of phrases. -/
structure Paired (s s' : Session Unreliable) : Prop where
  entropy : s.entropy = s'.entropy
  ids : s.ids = s'.ids
  log : s.log = s'.log
  schedule : s.store.schedule = s'.store.schedule
  changes : s.store.changes = s'.store.changes
  records : ∀ key, LikeAt key s.store.records[key]? s'.store.records[key]?

namespace Paired
variable {s s' : Session Unreliable}

theorem mem_iff (h : Paired s s') (key : String) :
    key ∈ s.store.records ↔ key ∈ s'.store.records := by
  rw [Std.ExtTreeMap.mem_iff_isSome_getElem?, Std.ExtTreeMap.mem_iff_isSome_getElem?,
    (h.records key).isSome_eq]

theorem keys (h : Paired s s') : s.store.records.keys = s'.store.records.keys :=
  (Records.pairwise_keys _).eq_of_mem_iff (Records.pairwise_keys _) fun key => by
    rw [Std.ExtTreeMap.mem_keys, Std.ExtTreeMap.mem_keys, h.mem_iff]

theorem record (h : Paired s s') (events : List Event) : Paired (s.record events) (s'.record events) :=
  { h with log := congrArg (· ++ events) h.log }

/-- A change of one key happens here and there, or fails here and there. -/
theorem change (h : Paired s s') (f f' : Records → Records)
    (hf : ∀ key, LikeAt key (f s.store.records)[key]? (f' s'.store.records)[key]?) :
    (s.store.change f).1 = (s'.store.change f').1 ∧
      Paired { s with store := (s.store.change f).2 } { s' with store := (s'.store.change f').2 } := by
  rw [Unreliable.change, Unreliable.change, ← h.schedule, ← h.changes]
  cases s.store.schedule s.store.changes with
  | none => exact ⟨rfl, { h with schedule := rfl, changes := rfl, records := hf }⟩
  | some fault => exact ⟨rfl, { h with schedule := rfl, changes := rfl }⟩

end Paired

namespace Program
variable {α : Type} {post : α → α → Prop} {p p' : Program α} {s s' : Session Unreliable}

/-- Programs that keep step still do after a call. -/
theorem InStep.step (h : p.InStep p' post) (hs : Paired s s') :
    (Program.step (p, s)).1.InStep (Program.step (p', s')).1 post ∧
      Paired (Program.step (p, s)).2 (Program.step (p', s')).2 := by
  cases p with
  | done a =>
    cases p' with
    | done a' => exact ⟨h, hs⟩
    | _ => exact h.elim
  | get key next =>
    cases p' with
    | get key' next' =>
      obtain ⟨rfl, h⟩ := h
      exact ⟨h _ _ (hs.records key), hs⟩
    | _ => exact h.elim
  | set key value next =>
    cases p' with
    | set key' value' next' =>
      obtain ⟨rfl, hv, h⟩ := h
      have hchange := hs.change (·.insert key value) (·.insert key value') fun other => ?_
      · simp only [Program.step, RecordStore.set, ← hchange.1]
        exact ⟨h _, hchange.2⟩
      · rw [Records.getElem?_insert, Records.getElem?_insert]
        split
        · next he => exact he ▸ hv
        · exact hs.records other
    | _ => exact h.elim
  | delete key next =>
    cases p' with
    | delete key' next' =>
      obtain ⟨rfl, h⟩ := h
      have hchange := hs.change (·.erase key) (·.erase key) fun other => ?_
      · simp only [Program.step, RecordStore.delete, ← hchange.1]
        exact ⟨h _, hchange.2⟩
      · rw [Records.getElem?_erase, Records.getElem?_erase]
        split
        · exact likeAt_none other
        · exact hs.records other
    | _ => exact h.elim
  | keys next =>
    cases p' with
    | keys next' =>
      simp only [Program.step, RecordStore.keys, hs.keys]
      exact ⟨h _, hs.record _⟩
    | _ => exact h.elim
  | draw count next =>
    cases p' with
    | draw count' next' =>
      obtain ⟨rfl, h⟩ := h
      simp only [Program.step, ← hs.entropy]
      exact ⟨h _ (Entropy.length_peek _ _), { hs with entropy := rfl }⟩
    | _ => exact h.elim
  | mint next =>
    cases p' with
    | mint next' =>
      simp only [Program.step, ← hs.ids]
      exact ⟨h _, { hs with ids := rfl }⟩
    | _ => exact h.elim
  | log event next =>
    cases p' with
    | log event' next' =>
      obtain ⟨rfl, h⟩ := h
      exact ⟨h, hs.record _⟩
    | _ => exact h.elim

theorem InStep.calls (h : p.InStep p' post) (hs : Paired s s') (n : ℕ) :
    (p.calls n s).1.InStep (p'.calls n s').1 post ∧ Paired (p.calls n s).2 (p'.calls n s').2 := by
  induction n generalizing p p' s s' with
  | zero => exact ⟨h, hs⟩
  | succ n ih =>
    rw [calls_succ, calls_succ]
    obtain ⟨hstep, hpaired⟩ := h.step hs
    exact ih hstep hpaired

theorem InStep.run (h : p.InStep p' post) (hs : Paired s s') :
    post (p.run s).1 (p'.run s').1 ∧ Paired (p.run s).2 (p'.run s').2 := by
  obtain ⟨n, hn⟩ := exists_calls_eq_run p s
  have hcalls := h.calls hs n
  have hrun := run_calls n p' s'
  rw [hn] at hcalls
  generalize p'.calls n s' = cut at hcalls hrun
  obtain ⟨rest, t'⟩ := cut
  obtain ⟨hrest, hpaired⟩ := hcalls
  cases rest with
  | done a' =>
    rw [← hrun]
    exact ⟨hrest, hpaired⟩
  | _ => exact hrest.elim

end Program

/-- Sequences of requests that only differ in the phrases they seal come to the same. -/
theorem Paired.after {s s' : Session Unreliable} (hs : Paired s s') {qs qs' : List Request}
    (h : List.Forall₂ Request.Like qs qs') :
    List.Forall₂ (LikeOutcome LikeAnswer) (outcomes s qs) (outcomes s' qs') ∧
      Paired (s.after qs) (s'.after qs') := by
  induction h generalizing s s' with
  | nil => exact ⟨.nil, hs⟩
  | cons hq _ ih =>
    obtain ⟨hr, ht⟩ := Program.InStep.run hq.inStep hs
    obtain ⟨hrs, hend⟩ := ih ht
    exact ⟨.cons hr hrs, hend⟩

/-- The phrases noted after a sequence of requests. -/
def notedAfter (notes : Notes) (s : Session Unreliable) : List Request → Notes
  | [] => notes
  | q :: qs =>
    notedAfter ((q.operation s.ids).noted notes s.store.records (q.program.run.run s).2.store.records)
      (q.program.run.run s).2 qs

/-- No password of a sequence of requests is changed with one that is accepted but does not derive
the key that the phrases are sealed under. -/
def DerivesAll (notes : Notes) (s : Session Unreliable) : List Request → Prop
  | [] => True
  | q :: qs =>
    (q.operation s.ids).Derives notes s.store.records ∧
    DerivesAll
      ((q.operation s.ids).noted notes s.store.records (q.program.run.run s).2.store.records)
      (q.program.run.run s).2 qs

theorem Tracks.after {notes : Notes} {s : Session Unreliable} (h : Tracks notes s.store.records)
    {qs rest : List Request} (hd : DerivesAll notes s (qs ++ rest)) :
    Tracks (notedAfter notes s qs) (s.after qs).store.records ∧
      DerivesAll (notedAfter notes s qs) (s.after qs) rest := by
  induction qs generalizing notes s with
  | nil => exact ⟨h, hd⟩
  | cons q qs ih =>
    obtain ⟨n, hn⟩ := Program.exists_calls_eq_run q.program.run s
    have htracks := Request.tracks_of_calls h hd.1 n
    rw [hn] at htracks
    exact ih htracks hd.2

/-- What can be seen of two sessions that are paired: all but the ciphers of phrases is the same. -/
structure Indistinct (t t' : Session Unreliable) : Prop where
  log : t.log = t'.log
  keys : t.store.records.keys = t'.store.records.keys
  credential : t.store.records[Key.credential]? = t'.store.records[Key.credential]?
  stagedCredential :
    t.store.records[Key.stagedCredential]? = t'.store.records[Key.stagedCredential]?
  phrase : ∀ owner, Option.Rel (LikePhrases owner) t.store.records[Key.phrase owner]?
    t'.store.records[Key.phrase owner]?
  stagedPhrase : ∀ owner, Option.Rel (LikePhrases owner) t.store.records[Key.stagedPhrase owner]?
    t'.store.records[Key.stagedPhrase owner]?

theorem Paired.indistinct {t t' : Session Unreliable} (h : Paired t t') : Indistinct t t' where
  log := h.log
  keys := h.keys
  credential := likeAt_credential.mp (h.records _)
  stagedCredential := likeAt_stagedCredential.mp (h.records _)
  phrase _ := likeAt_phrase.mp (h.records _)
  stagedPhrase _ := likeAt_stagedPhrase.mp (h.records _)

/-- Both programs have more to do, or both have ended, with outcomes that go together. -/
def LikeEnd : Program (Except Fault Answer) → Program (Except Fault Answer) → Prop
  | .done r, .done r' => LikeOutcome LikeAnswer r r'
  | .done _, _ | _, .done _ => False
  | _, _ => True

theorem likeEnd_of_inStep {p p' : Program (Except Fault Answer)}
    (h : p.InStep p' (LikeOutcome LikeAnswer)) : LikeEnd p p' := by
  cases p <;> cases p' <;> first | exact h | exact h.elim | exact trivial

/-- The records are of phrases noted here and there, and their ciphers are of one length if the
phrases are. -/
def Measured (noted noted' : Option String) (bytes bytes' : Bytes) : Prop :=
  ∃ (p p' : SealedPhrase) (phrase phrase' : String), bytes = p.write ∧ bytes' = p'.write ∧
    noted = some phrase ∧ noted' = some phrase' ∧
    ((Utf8.encode phrase).length = (Utf8.encode phrase').length → p.cipher.length = p'.cipher.length)

theorem measured_of_seals {noted noted' : Option String} {owner phrase phrase' : String}
    {bytes bytes' key key' : Bytes} (hn : noted = some phrase) (hn' : noted' = some phrase')
    (h : Seals bytes owner key phrase) (h' : Seals bytes' owner key' phrase') :
    Measured noted noted' bytes bytes' := by
  obtain ⟨p, hb, -, -, -, -, hc⟩ := h
  obtain ⟨p', hb', -, -, -, -, hc'⟩ := h'
  refine ⟨p, p', phrase, phrase', hb, hb', hn, hn', fun hl => ?_⟩
  rw [Sealing.length_of_encrypt hc, Sealing.length_of_encrypt hc', hl]

/-- Records of phrases that are noted are measured by them, in place or staged. -/
theorem Paired.measured {t t' : Session Unreliable} (h : Paired t t') {notes notes' : Notes}
    (ht : Traced notes t.store.records) (ht' : Traced notes' t'.store.records) (owner : String) :
    Option.Rel (Measured (notes owner) (notes' owner)) t.store.records[Key.phrase owner]?
        t'.store.records[Key.phrase owner]? ∧
      Option.Rel (Measured (notes owner) (notes' owner)) t.store.records[Key.stagedPhrase owner]?
        t'.store.records[Key.stagedPhrase owner]? := by
  have hrel : ∀ {v v' : Option Bytes}, Option.Rel (LikePhrases owner) v v' →
      (∀ bytes, v = some bytes → ∃ key text, notes owner = some text ∧ Seals bytes owner key text) →
      (∀ bytes, v' = some bytes → ∃ key text, notes' owner = some text ∧
        Seals bytes owner key text) →
      Option.Rel (Measured (notes owner) (notes' owner)) v v' := by
    intro v v' hv hs hs'
    cases hv with
    | none => exact .none
    | some _ =>
      obtain ⟨key, text, hn, hseal⟩ := hs _ rfl
      obtain ⟨key', text', hn', hseal'⟩ := hs' _ rfl
      exact .some (measured_of_seals hn hn' hseal hseal')
  exact ⟨hrel (h.indistinct.phrase owner) (fun bytes hb => ht owner bytes (.inl hb))
      fun bytes hb => ht' owner bytes (.inl hb),
    hrel (h.indistinct.stagedPhrase owner) (fun bytes hb => ht owner bytes (.inr hb))
      fun bytes hb => ht' owner bytes (.inr hb)⟩

/-- Nothing has been sealed yet. -/
def noNotes : Notes := fun _ => none

/-- Requests on a new vault whose changes fail as scheduled, the last of them cut short. -/
structure Course where
  entropy : Entropy
  ids : List String
  schedule : ℕ → Option IoFault
  requests : List Request
  last : Request
  calls : ℕ

namespace Course

def start (r : Course) : Session Unreliable := ⟨⟨∅, r.schedule, 0⟩, r.entropy, r.ids, []⟩

def before (r : Course) : Session Unreliable := r.start.after r.requests

/-- What is left of the last request, and the session it is cut short in. -/
def cut (r : Course) : Program (Except Fault Answer) × Session Unreliable :=
  r.last.program.run.calls r.calls r.before

def records (r : Course) : Records := r.cut.2.store.records

/-- The phrase last sealed for each owner. -/
def notes (r : Course) : Notes :=
  (r.last.operation r.before.ids).noted (notedAfter noNotes r.start r.requests)
    r.before.store.records r.records

def Derives (r : Course) : Prop := DerivesAll noNotes r.start (r.requests ++ [r.last])

/-- Courses that only differ in the phrases they seal. -/
structure Like (r r' : Course) : Prop where
  entropy : r.entropy = r'.entropy
  ids : r.ids = r'.ids
  schedule : r.schedule = r'.schedule
  requests : List.Forall₂ Request.Like r.requests r'.requests
  last : r.last.Like r'.last
  calls : r.calls = r'.calls

variable {r r' : Course}

theorem Like.paired_start (h : r.Like r') : Paired r.start r'.start where
  entropy := h.entropy
  ids := h.ids
  log := rfl
  schedule := h.schedule
  changes := rfl
  records key := by
    rw [start, start, getElem?_empty]
    exact likeAt_none key

theorem Like.inStep_cut (h : r.Like r') :
    r.cut.1.InStep r'.cut.1 (LikeOutcome LikeAnswer) ∧ Paired r.cut.2 r'.cut.2 := by
  rw [cut, cut, ← h.calls]
  exact Program.InStep.calls h.last.inStep (h.paired_start.after h.requests).2 r.calls

theorem tracks_notes (h : r.Derives) : Tracks r.notes r.records := by
  have hempty : Tracks noNotes r.start.store.records := .empty
  obtain ⟨hbefore, hlast⟩ := hempty.after h
  exact Request.tracks_of_calls hbefore hlast.1 r.calls

end Course

/-- Two runs on a new vault that only differ in the phrases they seal, cut short at any call, cannot be
told apart but by revealed texts and by the ciphers of phrases. Unless a password is changed with one
that is accepted but does not derive the key of the phrases, the ciphers of phrases of one length are
of one length. -/
theorem phrases_indistinct {r r' : Course} (h : r.Like r') :
    List.Forall₂ (LikeOutcome LikeAnswer) (outcomes r.start r.requests)
        (outcomes r'.start r'.requests) ∧
      LikeEnd r.cut.1 r'.cut.1 ∧ Indistinct r.cut.2 r'.cut.2 ∧
      (r.Derives → r'.Derives → ∀ owner,
        Option.Rel (Measured (r.notes owner) (r'.notes owner)) r.records[Key.phrase owner]?
            r'.records[Key.phrase owner]? ∧
          Option.Rel (Measured (r.notes owner) (r'.notes owner))
            r.records[Key.stagedPhrase owner]? r'.records[Key.stagedPhrase owner]?) := by
  obtain ⟨hrest, hcut⟩ := h.inStep_cut
  exact ⟨(h.paired_start.after h.requests).1, likeEnd_of_inStep hrest, hcut.indistinct,
    fun hd hd' => hcut.measured (Course.tracks_notes hd).traced (Course.tracks_notes hd').traced⟩

namespace Action

/-- Nothing comes of the first password if its write fails. -/
theorem run_setPassword_of_fault {s : Session Unreliable} {password : String} {fault : IoFault}
    (hp : password ≠ "") (hs : s.store.records = ∅)
    (hf : s.store.schedule s.store.changes = some fault) :
    (setPassword password).run.run s = (.error (.io fault),
      { s with
        store := { s.store with changes := s.store.changes + 1 }
        entropy := afterCredential s.entropy }) := by
  have hsettle : exclusive.run.run s = (.ok (), s) := by
    rw [exclusive, settle, run_bind_ok (run_fetch _ _), hs, getElem?_empty]
    rfl
  have howners : sealedOwners.run.run s = (.ok [], s) := by
    rw [sealedOwners, run_bind_ok (run_listKeys s), hs]
    rfl
  have hstored : loadCredential.run.run s = (.ok none, s) := by
    rw [loadCredential, run_bind_ok (run_fetch _ _), hs, getElem?_empty]
    rfl
  have hnew : (newCredential password).run.run s =
      (.ok (freshCredential s.entropy password), { s with entropy := afterCredential s.entropy }) := by
    rw [newCredential, if_neg hp]
    rfl
  rw [setPassword, run_bind_ok hsettle, run_bind_ok howners, if_neg (not_not_intro rfl),
    run_bind_ok hstored, run_bind_ok hnew]
  refine run_bind_error ?_
  rw [saveCredential, run_put, Unreliable.change, hf]
  rfl

end Action

/-- Setting the first password fails and is repeated. When the password has been changed, a phrase is
sealed, and revealed. -/
def Course.revealed (phrase : String) : Course where
  entropy := ⟨fun _ => 0, 0⟩
  ids := []
  schedule i := if i = 0 then some .full else none
  requests := [.perform (.setPassword "a"), .perform (.setPassword "a"),
    .perform (.changePassword "a" "b"), .perform (.sealFor "o" phrase "b")]
  last := .perform (.reveal "o" "b")
  calls := 2

/-- The phrase is there when it is to be revealed. -/
theorem exists_revealed {phrase : String} (hb : isBlank phrase = false) :
    (∃ bytes, (Course.revealed phrase).records[Key.phrase "o"]? = some bytes) ∧
      (Course.revealed phrase).notes "o" = some phrase := by
  obtain ⟨s, hfailed, hs, hworks⟩ : ∃ s : Session Unreliable,
      ((Request.perform (.setPassword "a")).program.run.run (Course.revealed phrase).start).2 = s ∧
        s.store.records = ∅ ∧ ¬ s.store.MayFail := by
    have hrun := Action.run_setPassword_of_fault (s := (Course.revealed phrase).start)
      (by decide : "a" ≠ "") rfl rfl
    refine ⟨_, rfl, ?_, ?_⟩
    · rw [Request.program, Operation.program, Action.run_map, hrun]
      rfl
    · rw [Request.program, Operation.program, Action.run_map, hrun]
      exact Unreliable.not_mayFail_of_none fun i hi => if_neg (Nat.ne_of_gt hi)
  obtain ⟨_, t, hset, ht, hworks⟩ := exists_run_of_honest (v := none)
    (q := .perform (.setPassword "a")) hs hworks (by rintro _ ⟨⟩)
    (by simp [Request.operation, Operation.refusal, phrasesOf])
  obtain ⟨_, u, hchange, hu, hworks⟩ := exists_run_of_honest
    (q := .perform (.changePassword "a" "b")) ht hworks
    (by simp [Request.operation, Operation.candidates, Operation.effect])
    (by simp [Request.operation, Operation.refusal, Operation.effect, agreesWith, Contents.agrees])
  obtain ⟨_, w, hseal, hw, -⟩ := exists_run_of_honest
    (q := .perform (.sealFor "o" phrase "b")) hu hworks
    (by simp [Request.operation, Operation.candidates, Operation.effect])
    (by simp [Request.operation, Operation.refusal, Operation.effect, phrasesOf, agreesWith,
      Contents.agrees, hb])
  have hn : Key.phrase "o" ∉ u.store.records := by
    simp [hu.mem_phrase, Request.operation, Operation.effect, phrasesOf]
  have hm : Key.phrase "o" ∈ w.store.records := by
    simp [hw.mem_phrase, Request.operation, Operation.effect, phrasesOf]
  have hrequests : (Course.revealed phrase).requests =
      [.perform (.setPassword "a"), .perform (.setPassword "a"), .perform (.changePassword "a" "b"),
        .perform (.sealFor "o" phrase "b")] := rfl
  have hbefore : (Course.revealed phrase).before = w := by
    rw [Course.before, hrequests, Session.after, hfailed, Session.after, hset, Session.after, hchange,
      Session.after, hseal, Session.after]
  have hrecords : (Course.revealed phrase).records = w.store.records := by
    have hreveal : Action.Assures True (· = w.store.records) (Operation.reveal "o" "b").program
        (fun _ _ => True) w.bare := by
      obtain ⟨g, hg, hstill⟩ := Action.looks_reveal "o" "b"
      refine Action.assures_map _ ?_
      rw [hg, Action.assures_shared_bind hw.settles.stagedCredential]
      exact Program.Assures.mono (hstill ()).assures (fun _ hz => hz) fun _ _ _ => trivial
    rw [Course.records, Course.cut, hbefore]
    exact (Program.assures_calls hreveal (fun _ => trivial) rfl _).2
  rw [hrecords]
  refine ⟨Option.ne_none_iff_exists'.mp (Records.getElem?_ne_none_iff.mpr hm), ?_⟩
  have hnotes : (Course.revealed phrase).notes =
      (Operation.sealFor "o" phrase "b").noted noNotes u.store.records w.store.records := by
    rw [Course.notes, hrequests]
    simp only [notedAfter, hfailed, hset, hchange, hseal]
    rfl
  rw [hnotes, Operation.noted, if_pos ⟨hm, hn⟩, Function.update_self]

/-- Phrases of one length have been sealed, and records with ciphers of one length are there. -/
theorem phrases_indistinct_revealed :
    Indistinct (Course.revealed "lion").cut.2 (Course.revealed "wolf").cut.2 ∧
      ∃ p p' : SealedPhrase,
        (Course.revealed "lion").records[Key.phrase "o"]? = some p.write ∧
        (Course.revealed "wolf").records[Key.phrase "o"]? = some p'.write ∧
        p.cipher.length = p'.cipher.length := by
  have hlike : (Course.revealed "lion").Like (Course.revealed "wolf") :=
    ⟨rfl, rfl, rfl,
      .cons (.same _) (.cons (.same _) (.cons (.same _) (.cons (.sealFor "o" "b" (by decide)) .nil))),
      .same _, rfl⟩
  have hderives : ∀ phrase, (Course.revealed phrase).Derives := fun phrase =>
    ⟨trivial, trivial, fun _ _ _ _ _ _ _ _ _ hn => (Option.some_ne_none _ hn.symm).elim, trivial,
      trivial, trivial⟩
  obtain ⟨-, -, hcut, hmeasured⟩ := phrases_indistinct hlike
  obtain ⟨⟨bytes, hbytes⟩, hnotes⟩ := exists_revealed (show isBlank "lion" = false by decide)
  obtain ⟨⟨bytes', hbytes'⟩, hnotes'⟩ := exists_revealed (show isBlank "wolf" = false by decide)
  have hrel := (hmeasured (hderives "lion") (hderives "wolf") "o").1
  rw [hbytes, hbytes', hnotes, hnotes'] at hrel
  obtain ⟨p, p', _, _, rfl, rfl, hlion, hwolf, hlength⟩ := Option.rel_some_some.mp hrel
  cases hlion
  cases hwolf
  exact ⟨hcut, p, p', hbytes, hbytes', hlength (by decide)⟩

end PhraseVault.Vault
