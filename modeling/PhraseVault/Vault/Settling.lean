import PhraseVault.Vault.Program

/-!
# Leftover rotations

A password rotation first stages the new credential and the re-sealed phrases, and takes effect when
the staged credential replaces the stored one. Settling finishes a rotation that took effect and
discards one that did not: it moves or drops the staged phrases and removes the staged credential
last, so it may be cut short and begun again.
-/
namespace PhraseVault.Vault
open Vault.Action

def readCredential (bytes : Bytes) : Action Credential :=
  outcome ((Credential.read bytes).mapError .malformed)

def readPhrase (bytes : Bytes) : Action SealedPhrase :=
  outcome ((SealedPhrase.read bytes).mapError .malformed)

def loadCredential : Action (Option Credential) := do
  match ← fetch Key.credential with
  | some bytes => return some (← readCredential bytes)
  | none => return none

def requireCredential : Action Credential := do
  match ← loadCredential with
  | some c => return c
  | none => throw .credentialNotSet

def saveCredential (c : Credential) : Action Unit := put Key.credential c.write

/-- Puts each staged phrase in place if the rotation took effect, and removes it. -/
def unstage (committed : Bool) : List String → Action Unit
  | [] => return
  | owner :: owners => do
    if committed then
      match ← fetch (Key.stagedPhrase owner) with
      | some bytes => put (Key.phrase owner) bytes
      | none => pure ()
    erase (Key.stagedPhrase owner)
    unstage committed owners

def settled (committed : Bool) (count : Nat) : Event :=
  if committed then .rotationCompleted count else .rotationDiscarded

/-- Finishes or discards a staged rotation. It took effect if its credential is the stored one. -/
def settle : Action Unit := do
  match ← fetch Key.stagedCredential with
  | none => return
  | some bytes =>
    let staged ← readCredential bytes
    let stored ← loadCredential
    let committed := stored == some staged
    let owners := (← listKeys).filterMap Key.stagedOwner?
    unstage committed owners
    erase Key.stagedCredential
    report (settled committed owners.length)

/-- Looks for a staged rotation and settles it, until there is none. -/
def sharedFor : (rounds : Nat) → Action Unit
  | 0 => throw .unsettled
  | rounds + 1 => do
    match ← fetch Key.stagedCredential with
    | none => return
    | some _ =>
      settle
      sharedFor rounds

/-- Readers look again after settling; what was settled is then gone. -/
def shared : Action Unit := sharedFor 2

/-- Writers settle right away. -/
def exclusive : Action Unit := settle

end PhraseVault.Vault
