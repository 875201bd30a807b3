import PhraseVault.Settings
import PhraseVault.Vault.Basic

/-!
# Commands

What a user can ask of the program, and why a request comes to nothing.
-/
namespace PhraseVault

inductive Command where
  | status
  | setPassword
  | verify
  | changePassword
  /-- Seals a phrase for an owner, or for a freshly minted one. -/
  | sealPhrase (owner : Option String)
  | reveal (owner : String)
  | list
  | remove (owner : String)
  | wipe (confirmed : Bool)
  deriving DecidableEq

namespace Command

inductive Failure where
  | settings (fault : Settings.Fault)
  | vault (fault : Vault.Fault)
  /-- A question found no one to answer it. -/
  | unanswered
  | confirmationDiffers
  | passwordAlreadySet
  | notVerified
  | wipeNotConfirmed
  deriving DecidableEq

/-- A vault's fault and what is behind it. -/
def vaultCauses (f : Vault.Fault) : List String :=
  match f with
  | .io e => [f.message, e.message]
  | .malformed e => [f.message, e.message]
  | _ => [f.message]

def settingsCauses (f : Settings.Fault) : List String :=
  match f with
  | .io e => [f.message, e.message]
  | _ => [f.message]

namespace Failure

/-- What went wrong, and after it the chain of its causes. -/
def causes : Failure → List String
  | settings f => "loading config" :: settingsCauses f
  | vault f => vaultCauses f
  | unanswered => ["reading from terminal", "no terminal input"]
  | confirmationDiffers => ["passwords do not match"]
  | passwordAlreadySet => ["a password is already set; use change-password"]
  | notVerified => ["password does not match"]
  | wipeNotConfirmed => ["refusing to wipe without --yes"]

end Failure

/-- Lines under a first one that begins with some lead, in a column of their own. -/
def hang (lead margin text : String) : String :=
  lead ++ ("\n" ++ margin).intercalate (text.splitOn "\n")

/-- A cause in a numbered list; the numbers stand in five columns. -/
def numbered (n : Nat) (cause : String) : String :=
  hang ("".pushn ' ' (5 - (Nat.toDigits 10 n).length) ++ s!"{n}: ") "       " cause

/-- A single cause stands alone, several are numbered. -/
def causeLines : List String → List String
  | [cause] => [hang "    " "    " cause]
  | causes => causes.mapIdx numbered

def Failure.report (f : Failure) : String :=
  match f.causes with
  | [] => ""
  | [m] => s!"Error: {m}"
  | m :: causes => "\n".intercalate (s!"Error: {m}" :: "" :: "Caused by:" :: causeLines causes)

end Command
end PhraseVault
