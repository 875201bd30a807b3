import PhraseVault.Proofs.Normal
import PhraseVault.Proofs.Vault.Operations

/-!
# Spellings of a password

A password is used for what it derives, and looked at itself only to see whether it is empty. So of
passwords with one normal form any may stand for any other, in every request of a run.
-/
namespace PhraseVault

/-- Passwords that are spellings of one another. -/
def Password.Alike (p q : String) : Prop := Unicode.normalize p = Unicode.normalize q

open Password (Alike)
variable {p q : String}

namespace Credential

theorem create_congr (h : Alike p q) (salt keySalt : String) :
    create p salt keySalt = create q salt keySalt := by
  rw [create, create, Password.derive_congr h]

theorem accepts_congr (h : Alike p q) (c : Credential) :
    c.accepts p = c.accepts q := by
  rw [accepts, accepts, Password.derive_congr h]

theorem cipherKey_congr (h : Alike p q) (c : Credential) :
    c.cipherKey p = c.cipherKey q :=
  Password.cipherKey_congr h _

end Credential

namespace Vault

section Programs
variable {p' q' : String}
variable (h : Alike p q)
variable (h' : Alike p' q')
include h

/-- The one look at a password itself does not tell spellings apart. -/
theorem newCredential_congr : newCredential p = newCredential q := by
  simp only [newCredential, Unicode.eq_empty_iff_of_normalize_eq h, Credential.create_congr h]

theorem matching_congr (c : Credential) : matching c p = matching c q := by
  rw [matching, matching, Credential.accepts_congr h]

theorem demand_congr (c : Credential) : demand c p = demand c q := by
  rw [demand, demand, matching_congr h]

theorem sealPhrase_congr (owner phrase : String) (c : Credential) :
    sealPhrase owner phrase c p = sealPhrase owner phrase c q := by
  rw [sealPhrase, sealPhrase, Credential.cipherKey_congr h]

theorem openPhrase_congr (sealed : SealedPhrase) (c : Credential) :
    openPhrase sealed c p = openPhrase sealed c q := by
  rw [openPhrase, openPhrase, Credential.cipherKey_congr h]

theorem setPassword_congr : setPassword p = setPassword q := by
  rw [setPassword, setPassword, newCredential_congr h]

theorem verifyPassword_congr : verifyPassword p = verifyPassword q := by
  simp only [verifyPassword, matching_congr h]

theorem sealFor_congr (owner phrase : String) :
    sealFor owner phrase p = sealFor owner phrase q := by
  simp only [sealFor, demand_congr h, sealPhrase_congr h]

theorem sealNew_congr (phrase : String) : sealNew phrase p = sealNew phrase q := by
  simp only [sealNew, sealFor_congr h]

theorem reveal_congr (owner : String) : reveal owner p = reveal owner q := by
  simp only [reveal, openPhrase_congr h]

include h'

theorem resealAll_congr (old next : Credential) (owners : List String) :
    resealAll old p next p' owners = resealAll old q next q' owners := by
  induction owners with
  | nil => rfl
  | cons owner owners ih =>
    simp only [resealAll, openPhrase_congr h, sealPhrase_congr h', ih]

theorem changePassword_congr : changePassword p p' = changePassword q q' := by
  simp only [changePassword, demand_congr h, newCredential_congr h', resealAll_congr h h']

end Programs

/-- The same operation, with passwords that may be spelt otherwise. -/
inductive Operation.Respelt : Operation → Operation → Prop
  | refl (op : Operation) : Respelt op op
  | setPassword {p q : String} (h : Alike p q) : Respelt (setPassword p) (setPassword q)
  | verifyPassword {p q : String} (h : Alike p q) : Respelt (verifyPassword p) (verifyPassword q)
  | changePassword {p q p' q' : String} (h : Alike p q) (h' : Alike p' q') :
    Respelt (changePassword p p') (changePassword q q')
  | sealFor {p q : String} (owner phrase : String) (h : Alike p q) :
    Respelt (sealFor owner phrase p) (sealFor owner phrase q)
  | reveal {p q : String} (owner : String) (h : Alike p q) :
    Respelt (reveal owner p) (reveal owner q)

inductive Request.Respelt : Request → Request → Prop
  | perform {op op' : Operation} (h : op.Respelt op') : Respelt (perform op) (perform op')
  | sealNew {p q : String} (phrase : String) (h : Alike p q) :
    Respelt (sealNew phrase p) (sealNew phrase q)

theorem Operation.Respelt.program_eq {op op' : Operation} (h : op.Respelt op') :
    op.program = op'.program := by
  cases h with
  | refl => rfl
  | setPassword h => rw [program, program, setPassword_congr h]
  | verifyPassword h => rw [program, program, verifyPassword_congr h]
  | changePassword h h' => rw [program, program, changePassword_congr h h']
  | sealFor owner phrase h => rw [program, program, sealFor_congr h owner phrase]
  | reveal owner h => rw [program, program, reveal_congr h owner]

theorem Request.Respelt.program_eq {r r' : Request} (h : r.Respelt r') :
    r.program = r'.program := by
  cases h with
  | perform h => exact h.program_eq
  | sealNew phrase h => rw [program, program, sealNew_congr h phrase]

variable {σ : Type} [RecordStore σ]

/-- Spelt otherwise, a request ends alike wherever it is cut short, and a run of requests comes to
the same and leaves the same store, log and random bytes to be drawn. -/
theorem spellings_interchangeable (s : Session σ) :
    (∀ r r' : Request, r.Respelt r' → r.program.run.run s = r'.program.run.run s ∧
      ∀ n, (r.program.run.calls n s).2 = (r'.program.run.calls n s).2) ∧
    ∀ rs rs' : List Request, List.Forall₂ Request.Respelt rs rs' →
      outcomes s rs = outcomes s rs' ∧ s.after rs = s.after rs' := by
  refine ⟨fun r r' h => ?_, fun rs rs' h => ?_⟩
  · rw [h.program_eq]
    exact ⟨rfl, fun _ => rfl⟩
  · induction h generalizing s with
    | nil => exact ⟨rfl, rfl⟩
    | @cons r r' rs rs' h _ ih =>
      obtain ⟨houtcomes, hafter⟩ := ih (r'.program.run.run s).2
      simp only [outcomes, Session.after, h.program_eq, houtcomes, hafter]
      exact ⟨trivial, trivial⟩

private theorem alike_accent : Alike "\u00E9" "e\u0301" := by
  unfold Alike
  decide +kernel

/-- A password with an accent is set as one letter, and verified as a letter with a mark. -/
theorem spellings_interchangeable_accent :
    let rs : List Request :=
      [.perform (.setPassword "\u00E9"), .perform (.verifyPassword "\u00E9")]
    let rs' : List Request :=
      [.perform (.setPassword "\u00E9"), .perform (.verifyPassword "e\u0301")]
    List.Forall₂ Request.Respelt rs rs' ∧ ∀ s : Session Records,
      outcomes s rs = outcomes s rs' ∧ s.after rs = s.after rs' := by
  intro rs rs'
  have h : List.Forall₂ Request.Respelt rs rs' :=
    .cons (.perform (.refl _)) (.cons (.perform (.verifyPassword alike_accent)) .nil)
  exact ⟨h, fun s => (spellings_interchangeable s).2 rs rs' h⟩

end Vault
end PhraseVault
