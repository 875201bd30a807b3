import PhraseVault.Proofs.Vault.Restart

/-!
# Looking before changing

An operation first looks at the records and may object to what it finds; once it has begun to change
them nothing keeps it from succeeding, as long as the store does not fail. So whatever it objects to,
nothing has been changed.
-/
namespace PhraseVault.Vault
variable {α β : Type}

namespace Program

/-- As long as the store does not fail, every program comes to an end. -/
theorem assures_true (p : Program α) (s : Session Records) :
    p.Assures False (fun _ => True) (fun _ _ => True) s := by
  induction p generalizing s with
  | done a => trivial
  | get key next ih => exact ih _ _
  | set key value next ih => exact ⟨False.elim, trivial, ih _ _⟩
  | delete key next ih => exact ⟨False.elim, trivial, ih _ _⟩
  | keys next ih => exact ih _ _
  | draw count next ih => exact ih _ _
  | mint next ih => exact ih _ _
  | log event next ih => exact ih _ _

end Program

namespace Action

/-- Looking at records ends with an answer or an objection, and leaves them alone. -/
def Looked (y : Records) (why : Fault → Prop) (answers : α → Prop) (r : Except Fault α)
    (t : Session Records) : Prop :=
  t.store = y ∧ match r with
    | .ok a => answers a
    | .error fault => why fault

/-- The action only looks at the records. -/
def Examines (y : Records) (why : Fault → Prop) (answers : α → Prop) (act : Action α) : Prop :=
  ∀ s : Session Records, s.store = y → Assures False (fun _ => True) act (Looked y why answers) s

/-- A refused action has a reason and leaves the records as they were; one that is not refused has
found them in order. -/
def Decided (y : Records) (why : Fault → Prop) (clear : Prop) (r : Except Fault α)
    (t : Session Records) : Prop :=
  match r with
  | .ok _ => clear
  | .error fault => t.store = y ∧ why fault

/-- The action decides what to object to before it changes anything. -/
def Decides (y : Records) (why : Fault → Prop) (clear : Prop) (act : Action α) : Prop :=
  ∀ s : Session Records, s.store = y → Assures False (fun _ => True) act (Decided y why clear) s

/-- The action objects to nothing. -/
def Succeeds (act : Action α) : Prop :=
  ∀ s : Session Records, Assures False (fun _ => True) act (fun r _ => ∃ a, r = .ok a) s

variable {y : Records} {why : Fault → Prop} {answers : α → Prop} {answers' : β → Prop}
variable {clear : Prop}
variable {act : Action α} {f : α → Action β}

theorem Examines.bind (h : Examines y why answers act)
    (hf : ∀ a, answers a → Examines y why answers' (f a)) :
    Examines y why answers' (act >>= f) := by
  intro s hs
  refine assures_bind ((h s hs).mono (fun _ hr => hr) ?_)
  rintro (fault | a) t ⟨ht, hr⟩
  · exact ⟨ht, hr⟩
  · exact hf a hr t ht

theorem Examines.bind_decides (h : Examines y why answers act)
    (hf : ∀ a, answers a → Decides y why clear (f a)) : Decides y why clear (act >>= f) := by
  intro s hs
  refine assures_bind ((h s hs).mono (fun _ hr => hr) ?_)
  rintro (fault | a) t ⟨ht, hr⟩
  · exact ⟨ht, hr⟩
  · exact hf a hr t ht

theorem Examines.decides (h : Examines y why answers act) (hclear : ∀ a, answers a → clear) :
    Decides y why clear act := by
  intro s hs
  refine (h s hs).mono (fun _ hr => hr) ?_
  rintro (fault | a) t ⟨ht, hr⟩
  · exact ⟨ht, hr⟩
  · exact hclear a hr

theorem Succeeds.decides (h : Succeeds act) (hclear : clear) : Decides y why clear act := by
  intro s _
  refine (h s).mono (fun _ hr => hr) ?_
  rintro r t ⟨a, rfl⟩
  exact hclear

theorem Succeeds.bind (h : Succeeds act) (hf : ∀ a, Succeeds (f a)) : Succeeds (act >>= f) := by
  intro s
  refine assures_bind ((h s).mono (fun _ hr => hr) ?_)
  rintro r t ⟨a, rfl⟩
  exact hf a t

theorem examines_pure {a : α} (h : answers a) : Examines y why answers (pure a) :=
  fun _ hs => ⟨hs, h⟩

theorem examines_throw {fault : Fault} (h : why fault) :
    Examines y why answers (throw fault) :=
  fun _ hs => ⟨hs, h⟩

theorem examines_outcome {ε : Type} {r : Except ε α} {g : ε → Fault}
    (hok : ∀ a, r = .ok a → answers a) (herror : ∀ fault, r = .error fault → why (g fault)) :
    Examines y why answers (outcome (r.mapError g)) := by
  intro s hs
  cases r with
  | ok a => exact ⟨hs, hok a rfl⟩
  | error fault => exact ⟨hs, herror fault rfl⟩

theorem examines_fetch (key : String) : Examines y why (· = y[key]?) (fetch key) := by
  rintro s rfl
  exact ⟨rfl, rfl⟩

theorem examines_sealedOwners : Examines y why (· = Records.owners y) sealedOwners := by
  rintro s rfl
  exact ⟨rfl, rfl⟩

theorem succeeds_pure (a : α) : Succeeds (pure a) := fun _ => ⟨a, rfl⟩

theorem succeeds_put (key : String) (value : Bytes) : Succeeds (put key value) :=
  fun _ => ⟨False.elim, trivial, (), rfl⟩

theorem succeeds_erase (key : String) : Succeeds (erase key) :=
  fun _ => ⟨False.elim, trivial, (), rfl⟩

theorem succeeds_report (event : Event) : Succeeds (report event) := fun _ => ⟨(), rfl⟩

/-- Nothing comes of an attempt but its outcome. -/
theorem succeeds_attempt (act : Action α) : Succeeds (attempt act) := by
  intro s
  refine Program.assures_bind ((Program.assures_true act.run s).mono (fun _ hr => hr) ?_)
  exact fun r _ _ => ⟨r, rfl⟩

/-- An attempt that cannot fail leaves only one way to go on. -/
theorem Succeeds.attempt_bind (h : Succeeds act) {f : Except Fault α → Action β}
    (hf : ∀ a, Succeeds (f (.ok a))) : Succeeds (attempt act >>= f) := by
  intro s
  refine assures_attempt_bind ((h s).mono (fun _ hr => hr) ?_)
  rintro r t ⟨a, rfl⟩
  exact hf a t

theorem examines_throw_bind {fault : Fault} (h : why fault) :
    Examines y why answers' (throw fault >>= f) :=
  fun _ hs => ⟨hs, h⟩

theorem decides_throw_bind {fault : Fault} (h : why fault) :
    Decides y why clear (throw fault >>= f) :=
  fun _ hs => ⟨hs, h⟩

theorem Decides.ite {p : Prop} [Decidable p] {act' : Action α} (h : p → Decides y why clear act)
    (h' : ¬ p → Decides y why clear act') : Decides y why clear (if p then act else act') := by
  split
  · exact h ‹p›
  · exact h' ‹¬ p›

theorem succeeds_deletePhrases (owners : List String) : Succeeds (deletePhrases owners) := by
  induction owners with
  | nil => exact succeeds_pure ()
  | cons owner owners ih => exact (succeeds_erase _).bind fun _ => ih

theorem succeeds_stagePhrases (ps : List SealedPhrase) : Succeeds (stagePhrases ps) := by
  induction ps with
  | nil => exact succeeds_pure ()
  | cons p ps ih => exact (succeeds_put _ _).bind fun _ => ih

theorem succeeds_stage (next : Credential) (resealed : List SealedPhrase) :
    Succeeds (stage next resealed) :=
  (succeeds_put _ _).bind fun _ => (succeeds_stagePhrases resealed).bind fun _ => succeeds_put _ _

end Action
end PhraseVault.Vault
