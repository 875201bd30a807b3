import PhraseVault.Proofs.Vault.Operations

/-!
# A vault does what its contents say

On records that never fail, the results of any sequence of requests are those of a vault that is just
a password and a map from owners to phrases.
-/
namespace PhraseVault.Vault

/-- A candidate is the password, up to normal form. -/
def Contents.agrees (c : Contents) (candidate : String) : Bool :=
  decide (Unicode.normalize candidate = Unicode.normalize c.password)

def agreesWith (v : Option Contents) (candidate : String) : Bool :=
  v.any fun c => c.agrees candidate

namespace Operation

/-- What a vault keeps after an operation. -/
def next (v : Option Contents) (op : Operation) : Option Contents :=
  match op.refusal (agreesWith v) v with
  | some _ => v
  | none => op.effect v

/-- The results that are right for an operation. -/
def Expects (v : Option Contents) (op : Operation) (r : Except Fault Answer) : Prop :=
  match op.refusal (agreesWith v) v with
  | some fault => r = .error fault
  | none => ∃ a, r = .ok a ∧ op.Answers (agreesWith v) v a

end Operation

/-- What is right for each request of a sequence, in a vault of which only the contents are known. -/
def expectations (v : Option Contents) (ids : List String) :
    List Request → List (Except Fault Answer → Prop)
  | [] => []
  | q :: qs =>
    (q.operation ids).Expects v :: expectations ((q.operation ids).next v) (q.idsAfter ids) qs

/-- No candidate of a sequence of requests is accepted that is not the password. -/
def Discerning (v : Option Contents) (s : Session Records) : List Request → Prop
  | [] => True
  | q :: qs =>
    (∀ c, v = some c → ∀ d, Stored s.store d → ∀ candidate ∈ (q.operation s.ids).candidates,
      Unicode.normalize candidate = Unicode.normalize c.password ∨
        d.accepts candidate = .ok false) ∧
    Discerning ((q.operation s.ids).next v) (q.program.run.run s).2 qs

variable {v : Option Contents} {s : Session Records}

theorem judged_of_discerning {op : Operation} (hv : Represents s.store v)
    (hd : ∀ c, v = some c → ∀ d, Stored s.store d → ∀ candidate ∈ op.candidates,
      Unicode.normalize candidate = Unicode.normalize c.password ∨
        d.accepts candidate = .ok false) :
    op.Judged (agreesWith v) s.store v := by
  rintro c rfl d hstored candidate hc
  obtain ⟨e, he⟩ := hv
  obtain rfl := hstored.unique he.stored
  obtain ⟨salt, keySalt, rfl⟩ := he.made
  by_cases hn : Unicode.normalize candidate = Unicode.normalize c.password
  · have hagrees : agreesWith (some c) candidate = true := decide_eq_true hn
    rw [hagrees]
    exact ⟨Credential.accepts_create_of_normalize_eq hn salt keySalt,
      fun _ => Password.cipherKey_congr hn _⟩
  · have hagrees : agreesWith (some c) candidate = false := decide_eq_false hn
    rw [hagrees]
    exact ⟨(hd c rfl _ hstored candidate hc).resolve_left hn, fun h => nomatch h⟩

/-- One request. -/
theorem expects_run {q : Request} (hv : Represents s.store v)
    (hd : ∀ c, v = some c → ∀ d, Stored s.store d → ∀ candidate ∈ (q.operation s.ids).candidates,
      Unicode.normalize candidate = Unicode.normalize c.password ∨
        d.accepts candidate = .ok false) :
    (q.operation s.ids).Expects v (q.program.run.run s).1 ∧
      Represents (q.program.run.run s).2.store ((q.operation s.ids).next v) ∧
      (q.program.run.run s).2.ids = q.idsAfter s.ids := by
  have hassures : Action.Assures False _ q.program _ s :=
    Request.meets_program hv.settles hv (.inl rfl) (judged_of_discerning hv hd) False.elim
  obtain ⟨hi, hmeets⟩ := Program.post_of_run_records hassures
  rcases hmeets with ⟨hfails, -⟩ | hmeets
  · cases hfails
  rw [Operation.Expects, Operation.next]
  cases hr : (q.operation s.ids).refusal (agreesWith v) v with
  | some fault =>
    rw [hr] at hmeets
    obtain ⟨he, -, ht⟩ := hmeets
    exact ⟨he, ht.resolve_right id, hi⟩
  | none =>
    rw [hr] at hmeets
    obtain ⟨a, he, ha, -, ht⟩ := hmeets
    exact ⟨⟨a, he, ha⟩, ht.resolve_right id, hi⟩

/-- Where no failure is to come, a request with the right password that is not refused is answered. -/
theorem exists_run_of_honest {t : Session Unreliable} {q : Request}
    (hv : Represents t.store.records v) (hworks : ¬ t.store.MayFail)
    (hhonest : ∀ c, v = some c → ∀ candidate ∈ (q.operation t.ids).candidates,
      Unicode.normalize candidate = Unicode.normalize c.password)
    (hr : (q.operation t.ids).refusal (agreesWith v) v = none) :
    ∃ a u, q.program.run.run t = (.ok a, u) ∧
      Represents u.store.records ((q.operation t.ids).effect v) ∧ ¬ u.store.MayFail := by
  obtain ⟨hexpects, hnext, -⟩ := expects_run (s := t.bare) (q := q) hv
    fun c hc _ _ candidate hm => .inl (hhonest c hc candidate hm)
  obtain ⟨hsame, hbare⟩ := Program.run_of_not_mayFail q.program.run hworks
  rw [← hsame, Operation.Expects, show (q.operation t.bare.ids).refusal _ v = none from hr] at hexpects
  rw [← hbare, Operation.next, show (q.operation t.bare.ids).refusal _ v = none from hr] at hnext
  obtain ⟨a, ha, -⟩ := hexpects
  exact ⟨a, _, Prod.ext ha rfl, hnext, mt (Program.mayFail_of_run q.program.run t) hworks⟩

theorem results_expected (hv : Represents s.store v) {qs : List Request}
    (hd : Discerning v s qs) :
    List.Forall₂ (fun r expected => expected r) (outcomes s qs) (expectations v s.ids qs) := by
  induction qs generalizing v s with
  | nil => exact .nil
  | cons q qs ih =>
    obtain ⟨he, ht, hi⟩ := expects_run hv hd.1
    have hrest := ih ht hd.2
    rw [hi] at hrest
    exact .cons he hrest

/-- Whatever is asked of a new vault, in any order, it answers as its contents say. -/
theorem results_of_empty (entropy : Entropy) (ids : List String) {qs : List Request}
    (hd : Discerning none ⟨∅, entropy, ids, []⟩ qs) :
    List.Forall₂ (fun r expected => expected r) (outcomes (⟨∅, entropy, ids, []⟩ : Session Records) qs)
      (expectations none ids qs) :=
  results_expected (v := none) (s := ⟨∅, entropy, ids, []⟩) rfl hd

/-- Every candidate of a sequence of requests is the password. -/
def Honest (v : Option Contents) (ids : List String) : List Request → Prop
  | [] => True
  | q :: qs =>
    (∀ c, v = some c → ∀ candidate ∈ (q.operation ids).candidates,
      Unicode.normalize candidate = Unicode.normalize c.password) ∧
    Honest ((q.operation ids).next v) (q.idsAfter ids) qs

theorem Honest.discerning {qs : List Request} (hv : Represents s.store v)
    (h : Honest v s.ids qs) : Discerning v s qs := by
  induction qs generalizing v s with
  | nil => trivial
  | cons q qs ih =>
    have hq : ∀ c, v = some c → ∀ d, Stored s.store d →
        ∀ candidate ∈ (q.operation s.ids).candidates,
          Unicode.normalize candidate = Unicode.normalize c.password ∨
            d.accepts candidate = .ok false :=
      fun c hc _ _ candidate hm => .inl (h.1 c hc candidate hm)
    obtain ⟨-, ht, hi⟩ := expects_run hv hq
    refine ⟨hq, ih ht ?_⟩
    rw [hi]
    exact h.2

theorem results_of_empty_sealed :
    ∃ p : SealedPhrase, p.owner = "o" ∧
      outcomes (⟨∅, ⟨fun _ => 0, 0⟩, ["o"], []⟩ : Session Records)
        [.perform (.setPassword "a"), .sealNew "word" "a", .perform (.reveal "o" "a")] =
      [.ok .done, .ok (.record p), .ok (.text "word")] := by
  have hset : (Operation.setPassword "a").next none = some ⟨"a", ∅⟩ := by
    simp [Operation.next, Operation.refusal, Operation.effect, phrasesOf]
  have hblank : isBlank "word" = false := by decide
  have hseal : (Operation.sealFor "o" "word" "a").next (some ⟨"a", ∅⟩) =
      some ⟨"a", (∅ : Phrases).insertIfNew "o" "word"⟩ := by
    simp [Operation.next, Operation.refusal, Operation.effect, phrasesOf, agreesWith,
      Contents.agrees, hblank]
  have hd : Discerning none ⟨∅, ⟨fun _ => 0, 0⟩, ["o"], []⟩
      [.perform (.setPassword "a"), .sealNew "word" "a", .perform (.reveal "o" "a")] := by
    refine Honest.discerning (v := none) rfl ?_
    simp [Honest, Request.operation, Request.idsAfter, Operation.candidates, hset, hseal]
  have h := results_of_empty ⟨fun _ => 0, 0⟩ ["o"] hd
  simp only [expectations, Request.operation, Request.idsAfter, List.headD_cons, hset, hseal] at h
  generalize outcomes (⟨∅, ⟨fun _ => 0, 0⟩, ["o"], []⟩ : Session Records) _ = rs at h ⊢
  obtain _ | ⟨h1, _ | ⟨h2, _ | ⟨h3, _ | _⟩⟩⟩ := h
  obtain rfl : _ = Except.ok Answer.done := by
    simpa [Operation.Expects, Operation.refusal, Operation.Answers, phrasesOf] using h1
  obtain ⟨p, hp, rfl⟩ : ∃ p : SealedPhrase, p.owner = "o" ∧ _ = Except.ok (Answer.record p) := by
    simpa [Operation.Expects, Operation.refusal, Operation.Answers, phrasesOf, agreesWith,
      Contents.agrees, hblank, and_comm] using h2
  obtain rfl : _ = Except.ok (Answer.text "word") := by
    simpa [Operation.Expects, Operation.refusal, Operation.Answers, phrasesOf, agreesWith,
      Contents.agrees, Std.ExtTreeMap.getElem_insertIfNew] using h3
  exact ⟨p, hp, rfl⟩

end PhraseVault.Vault
