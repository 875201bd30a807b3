import PhraseVault.Command.Basic

/-!
# Commands in dialogue

A command asks its questions at a terminal and works on a vault in between. The questions of a
dialogue form a tree that goes on from each one with the line typed, or with nothing when there is
no one to type it.
-/
namespace PhraseVault

inductive Dialogue (α : Type) where
  | finished (result : α)
  | ask (question : String) (next : Option String → Dialogue α)

namespace Dialogue
variable {α β : Type}

def bind : Dialogue α → (α → Dialogue β) → Dialogue β
  | finished a, f => f a
  | ask question next, f => ask question fun line => (next line).bind f

instance : Monad Dialogue where
  pure := finished
  bind := bind

/-- The result when the given lines are typed, one for each question. -/
def answered : Dialogue α → List String → α
  | finished a, _ => a
  | ask _ next, lines => (next lines.head?).answered lines.tail

end Dialogue

namespace Command
variable {σ : Type}

/-- A dialogue over a vault that may end in a failure. -/
abbrev Talk (σ α : Type) := ExceptT Failure (StateT (Vault.Session σ) Dialogue) α

def ask (question : String) : Talk σ String :=
  ExceptT.mk fun s => .ask question fun
    | some line => .finished (.ok line, s)
    | none => .finished (.error .unanswered, s)

def onVault {α : Type} [RecordStore σ] (act : Vault.Action α) : Talk σ α :=
  ExceptT.mk fun s =>
    let (r, s) := act.run.run s
    .finished (r.mapError Failure.vault, s)

/-- Asks for a new password twice. -/
def askNewPassword : Talk σ String := do
  let password ← ask "New password: "
  let again ← ask "Confirm password: "
  if password ≠ again then throw .confirmationDiffers
  return password

/-- Demands that a password verifies. -/
def demandVerified [RecordStore σ] (password : String) : Talk σ Unit := do
  if !(← onVault (Vault.verifyPassword password)) then throw .notVerified

def showState : Vault.State → String
  | .uninitialized => "no password set"
  | .passwordSet n => s!"password set; {n} sealed phrase(s)"

/-- Carries a command out and gives the lines that it prints. A command that fails prints none. -/
def perform [RecordStore σ] : Command → Talk σ (List String)
  | status => do return [showState (← onVault Vault.state)]
  | setPassword => do
    if ← onVault Vault.hasPassword then throw .passwordAlreadySet
    let password ← askNewPassword
    onVault (Vault.setPassword password)
    return ["password set"]
  | verify => do
    demandVerified (← ask "Password: ")
    return ["password ok"]
  | changePassword => do
    let current ← ask "Current password: "
    let password ← askNewPassword
    onVault (Vault.changePassword current password)
    return ["password changed"]
  | sealPhrase owner => do
    let password ← ask "Password: "
    let phrase ← ask "Recovery phrase: "
    let p ← onVault (match owner with
      | some owner => Vault.sealFor owner phrase password
      | none => Vault.sealNew phrase password)
    return [s!"sealed phrase for {p.owner}"]
  | reveal owner => do
    let password ← ask "Password: "
    demandVerified password
    return [← onVault (Vault.reveal owner password)]
  | list => onVault Vault.owners
  | remove owner => do
    onVault (Vault.remove owner)
    return [s!"removed {owner}"]
  | wipe confirmed => do
    if !confirmed then throw .wipeNotConfirmed
    onVault Vault.wipe
    return ["vault wiped"]

/-- What comes of a command over a store when the given lines are typed. -/
def outcome [RecordStore σ] (c : Command) (lines : List String) (s : Vault.Session σ) :
    Except Failure (List String) × Vault.Session σ :=
  (c.perform.run.run s).answered lines

end Command
end PhraseVault
