import PhraseVault.Proofs.Vault.Rules

/-!
# Programs that only look

A program that makes no change, whatever is replied, leaves the store as it was. Where it stands in
front of the rest of an operation it decides how that goes on, and nothing else.
-/
namespace PhraseVault.Vault
variable {α β : Type}

namespace Program

/-- Whatever is replied, the program makes no change. -/
def Still : Program α → Prop
  | done _ => True
  | get _ next => ∀ r, (next r).Still
  | set _ _ _ => False
  | delete _ _ => False
  | keys next => ∀ r, (next r).Still
  | draw _ next => ∀ bytes, (next bytes).Still
  | mint next => ∀ id, (next id).Still
  | log _ next => (next ()).Still

theorem Still.bind {p : Program α} {f : α → Program β} (h : p.Still) (hf : ∀ a, (f a).Still) :
    (p.bind f).Still := by
  induction p with
  | done a => exact hf a
  | get key next ih => exact fun r => ih r (h r)
  | set key value next ih => exact h.elim
  | delete key next ih => exact h.elim
  | keys next ih => exact fun r => ih r (h r)
  | draw count next ih => exact fun bytes => ih bytes (h bytes)
  | mint next ih => exact fun id => ih id (h id)
  | log event next ih => exact ih () h

variable {fails fails' : Prop} {ok ok' : Records → Prop} {post : α → Session Records → Prop}

/-- Changes that are not made cannot fail. -/
theorem Still.assures_congr {p : Program α} {s : Session Records} (h : p.Still)
    (hp : p.Assures fails ok post s) : p.Assures fails' ok' post s := by
  induction p generalizing s with
  | done a => exact hp
  | get key next ih => exact ih _ (h _) hp
  | set key value next ih => exact h.elim
  | delete key next ih => exact h.elim
  | keys next ih => exact ih _ (h _) hp
  | draw count next ih => exact ih _ (h _) hp
  | mint next ih => exact ih _ (h _) hp
  | log event next ih => exact ih _ h hp

theorem Still.assures {p : Program α} {s : Session Records} (h : p.Still) :
    p.Assures fails ok (fun _ t => t.store = s.store) s := by
  induction p generalizing s with
  | done a => exact rfl
  | get key next ih => exact ih _ (h _)
  | set key value next ih => exact h.elim
  | delete key next ih => exact h.elim
  | keys next ih => exact ih _ (h _)
  | draw count next ih => exact ih _ (h _) (s := { s with entropy := s.entropy.advance count })
  | mint next ih => exact ih _ (h _) (s := { s with ids := s.ids.tail })
  | log event next ih => exact ih _ h (s := s.record [event])

end Program

namespace Action

/-- Whatever is replied, the action makes no change. -/
def Still (act : Action α) : Prop := Program.Still act.run

variable {act : Action α} {f : α → Action β}
variable {fails : Prop} {ok : Records → Prop} {s : Session Records}
variable {post : Except Fault β → Session Records → Prop}

theorem still_pure (a : α) : Still (pure a) := trivial

theorem still_throw (fault : Fault) : Still (throw fault : Action α) := trivial

theorem still_bind (h : Still act) (hf : ∀ a, Still (f a)) : Still (act >>= f) := by
  refine Program.Still.bind h fun r => ?_
  cases r with
  | ok a => exact hf a
  | error fault => exact trivial

theorem still_ite {c : Prop} [Decidable c] {act other : Action β} (h : Still act) (ho : Still other) :
    Still (if c then act else other) := by
  split
  · exact h
  · exact ho

/-- An action that only looks is followed by what goes on from the same records. -/
theorem assures_still_bind (h : Still act)
    (herror : ∀ fault t, t.store = s.store → post (.error fault) t)
    (hf : ∀ a t, t.store = s.store → Assures fails ok (f a) post t) :
    Assures fails ok (act >>= f) post s := by
  refine assures_bind (Program.Assures.mono (Program.Still.assures h) (fun _ hr => hr) ?_)
  rintro (fault | a) t ht
  · exact herror fault t ht
  · exact hf a t ht

theorem still_fetch (key : String) : Still (fetch key) := fun _ => trivial

theorem still_listKeys : Still listKeys := fun _ => trivial

theorem still_draw (count : Nat) : Still (draw count) := fun _ => trivial

theorem still_report (event : Event) : Still (report event) := trivial

theorem still_outcome (r : Except Fault α) : Still (outcome r) := trivial

theorem still_loadCredential : Still loadCredential := by
  refine still_bind (still_fetch _) fun v => ?_
  cases v with
  | none => exact still_pure _
  | some bytes => exact still_bind (still_outcome _) fun _ => still_pure _

theorem still_requireCredential : Still requireCredential := by
  refine still_bind still_loadCredential fun c => ?_
  cases c with
  | none => exact still_throw _
  | some c => exact still_pure _

theorem still_matching (c : Credential) (password : String) : Still (matching c password) :=
  still_outcome _

theorem still_demand (c : Credential) (password : String) : Still (demand c password) :=
  still_bind (still_matching c password) fun _ => still_ite (still_pure _) (still_throw _)

theorem still_newCredential (password : String) : Still (newCredential password) := by
  have hsalt : Still drawSalt := still_bind (still_draw _) fun _ => still_pure _
  refine still_ite (still_bind (still_throw _) fun _ => ?_) ?_ <;>
    exact still_bind hsalt fun _ => still_bind hsalt fun _ => still_pure _

theorem still_sealedOwners : Still sealedOwners := still_bind still_listKeys fun _ => still_pure _

theorem still_requirePhrase (owner : String) : Still (requirePhrase owner) := by
  have hload : Still (loadPhrase owner) := by
    refine still_bind (still_fetch _) fun v => ?_
    cases v with
    | none => exact still_pure _
    | some bytes =>
      exact still_bind (still_outcome _) fun p => still_ite (still_throw _) (still_pure _)
  refine still_bind hload fun p => ?_
  cases p with
  | none => exact still_throw _
  | some p => exact still_pure _

theorem still_openPhrase (p : SealedPhrase) (c : Credential) (password : String) :
    Still (openPhrase p c password) :=
  still_outcome _

theorem still_sealPhrase (owner phrase : String) (c : Credential) (password : String) :
    Still (sealPhrase owner phrase c password) := by
  refine still_bind (still_bind (still_draw _) fun _ => still_pure _) fun iv => ?_
  exact still_bind (still_outcome _) fun _ => still_pure _

theorem still_resealAll (old : Credential) (current : String) (next : Credential)
    (password : String) (owners : List String) :
    Still (resealAll old current next password owners) := by
  induction owners with
  | nil => exact still_pure _
  | cons owner owners ih =>
    refine still_bind (still_requirePhrase owner) fun p => ?_
    refine still_bind (still_openPhrase p old current) fun phrase => ?_
    refine still_bind (still_sealPhrase owner phrase next password) fun resealed => ?_
    exact still_bind ih fun _ => still_pure _

/-- The action is opened for looking, and then only looks. -/
def Looks (act : Action α) : Prop :=
  ∃ g : Unit → Action α, act = (shared >>= g) ∧ ∀ u, Still (g u)

theorem looks_hasPassword : Looks hasPassword :=
  ⟨_, rfl, fun _ => still_bind (still_fetch _) fun _ => still_pure _⟩

theorem looks_state : Looks Vault.state := by
  refine ⟨_, rfl, fun _ => still_bind still_loadCredential fun c => ?_⟩
  cases c with
  | none => exact still_pure _
  | some c => exact still_bind still_sealedOwners fun _ => still_pure _

theorem looks_verifyPassword (candidate : String) : Looks (verifyPassword candidate) := by
  refine ⟨_, rfl, fun _ => still_bind still_requireCredential fun c => ?_⟩
  refine still_bind (still_matching c candidate) fun verified => ?_
  exact still_ite (still_bind (still_report _) fun _ => still_pure _) (still_pure _)

theorem looks_reveal (owner password : String) : Looks (reveal owner password) := by
  refine ⟨_, rfl, fun _ => still_bind still_requireCredential fun c => ?_⟩
  exact still_bind (still_requirePhrase owner) fun p => still_openPhrase p c password

theorem looks_hasPhrase (owner : String) : Looks (hasPhrase owner) :=
  ⟨_, rfl, fun _ => still_bind (still_fetch _) fun _ => still_pure _⟩

theorem looks_owners : Looks owners := ⟨_, rfl, fun _ => still_sealedOwners⟩

end Action
end PhraseVault.Vault
