import PhraseVault.Vault.Fault

/-!
# What a vault logs
-/
namespace PhraseVault

inductive LogLevel where
  | error
  | warn
  | info
  | debug
  | trace
  deriving DecidableEq

/-- Which part of the program a line comes from. -/
inductive LogTopic where
  | program
  | store
  | vault
  deriving DecidableEq

def LogTopic.name : LogTopic → String
  | .program => "seed_vault"
  | .store => "seed_vault::store"
  | .vault => "seed_vault::vault"

namespace Vault

inductive Event where
  | usingDirectory (path : String)
  | unrecognisedFile (name : String)
  | credentialCreated
  | credentialReplaced
  | verificationFailed
  | phraseSealed (owner : String)
  | phraseRemoved (owner : String)
  | wiped (count : Nat)
  | rotated (count : Nat)
  | rotationCompleted (count : Nat)
  | rotationDiscarded
  | settlingFailed (fault : Fault)
  | movingDeferred (fault : Fault)
  deriving DecidableEq

namespace Event

def level : Event → LogLevel
  | usingDirectory _ | verificationFailed => .debug
  | unrecognisedFile _ | wiped _ | rotationDiscarded | settlingFailed _ | movingDeferred _ => .warn
  | _ => .info

def topic : Event → LogTopic
  | usingDirectory _ => .program
  | unrecognisedFile _ => .store
  | _ => .vault

def message : Event → String
  | usingDirectory path => s!"using record directory {path}"
  | unrecognisedFile name => s!"ignoring unrecognised file in record store: {name}"
  | credentialCreated => "password credential created"
  | credentialReplaced => "password credential replaced"
  | verificationFailed => "password verification failed"
  | phraseSealed owner => s!"sealed mnemonic for owner {owner}"
  | phraseRemoved owner => s!"removed sealed mnemonic for owner {owner}"
  | wiped n => s!"vault wiped; removed {n} sealed mnemonic(s)"
  | rotated n => s!"password rotated; re-sealed {n} mnemonic(s)"
  | rotationCompleted n => s!"completed password rotation; {n} mnemonic(s) moved"
  | rotationDiscarded => "discarded unfinished password rotation"
  | settlingFailed f => s!"could not settle failed password rotation: {f.message}"
  | movingDeferred f => s!"password rotated; moving re-sealed mnemonics deferred: {f.message}"

end Event
end Vault
end PhraseVault
