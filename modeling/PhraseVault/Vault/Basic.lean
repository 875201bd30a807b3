import PhraseVault.Vault.Settling
import PhraseVault.Unicode.Blank

/-!
# Vault operations

One password guards any number of recovery phrases, each sealed for an owner under a key that the
password derives. Every operation settles a leftover rotation before it looks at the records.
-/
namespace PhraseVault.Vault
open Vault.Action

def drawSalt : Action String := do return Entropy.saltOf (← draw Entropy.saltLength)

def drawIv : Action Iv := do return Iv.pack (← draw Iv.freshLength)

/-- A credential for a password, with two fresh salts. -/
def newCredential (password : String) : Action Credential := do
  if password = "" then throw (.input .emptyPassword)
  let salt ← drawSalt
  let keySalt ← drawSalt
  return Credential.create password salt keySalt

/-- Whether a password is the one behind a credential. -/
def matching (c : Credential) (password : String) : Action Bool :=
  outcome ((c.accepts password).mapError fun f => .corrupt Key.credential (.hash f))

def demand (c : Credential) (password : String) : Action Unit := do
  if ← matching c password then return else throw .wrongPassword

/-- Seals a phrase under a fresh vector. -/
def sealPhrase (owner phrase : String) (c : Credential) (password : String) :
    Action SealedPhrase := do
  let iv ← drawIv
  let cipher ← outcome ((Sealing.encrypt phrase (c.cipherKey password) iv).mapError .ofPrimitive)
  return ⟨owner, cipher, iv⟩

/-- Opens a sealed phrase; a wrong password yields some other text. -/
def openPhrase (p : SealedPhrase) (c : Credential) (password : String) : Action String :=
  outcome ((Sealing.decrypt p.cipher (c.cipherKey password) p.iv).mapError (.ofOpening p.owner))

/-- The sealed phrase of an owner, which has to name that owner. -/
def loadPhrase (owner : String) : Action (Option SealedPhrase) := do
  match ← fetch (Key.phrase owner) with
  | none => return none
  | some bytes =>
    let p ← readPhrase bytes
    if p.owner ≠ owner then throw (.corrupt (Key.phrase owner) (.owner p.owner))
    return some p

def requirePhrase (owner : String) : Action SealedPhrase := do
  match ← loadPhrase owner with
  | some p => return p
  | none => throw (.phraseNotFound owner)

def savePhrase (p : SealedPhrase) : Action Unit := put (Key.phrase p.owner) p.write

def sealedOwners : Action (List String) := do return (← listKeys).filterMap Key.phraseOwner?

inductive State where
  | uninitialized
  | passwordSet (sealedCount : Nat)
  deriving DecidableEq, Repr

def hasPassword : Action Bool := do
  shared
  return (← fetch Key.credential).isSome

def state : Action State := do
  shared
  match ← loadCredential with
  | none => return .uninitialized
  | some _ => return .passwordSet (← sealedOwners).length

/-- Sets the password while no phrase is sealed. -/
def setPassword (password : String) : Action Unit := do
  exclusive
  let owners ← sealedOwners
  if owners ≠ [] then throw (.phrasesSealed owners.length)
  let stored ← loadCredential
  saveCredential (← newCredential password)
  report (if stored.isSome then .credentialReplaced else .credentialCreated)

def verifyPassword (candidate : String) : Action Bool := do
  shared
  let c ← requireCredential
  let verified ← matching c candidate
  if !verified then report .verificationFailed
  return verified

/-- Opens every phrase and seals it again under a new credential. -/
def resealAll (old : Credential) (current : String) (next : Credential) (password : String) :
    List String → Action (List SealedPhrase)
  | [] => return []
  | owner :: owners => do
    let p ← requirePhrase owner
    let phrase ← openPhrase p old current
    let resealed ← sealPhrase owner phrase next password
    return resealed :: (← resealAll old current next password owners)

def stagePhrases : List SealedPhrase → Action Unit
  | [] => return
  | p :: ps => do
    put (Key.stagedPhrase p.owner) p.write
    stagePhrases ps

/-- Writes the staged records and then, as the last step, the credential itself. -/
def stage (next : Credential) (resealed : List SealedPhrase) : Action Unit := do
  put Key.stagedCredential next.write
  stagePhrases resealed
  saveCredential next

/-- Changes the password and seals every phrase anew. Once the credential is replaced the change
stands, whatever becomes of the rest. -/
def changePassword (current password : String) : Action Unit := do
  exclusive
  let old ← requireCredential
  demand old current
  let next ← newCredential password
  let resealed ← resealAll old current next password (← sealedOwners)
  match ← attempt (stage next resealed) with
  | .error fault =>
    match ← attempt settle with
    | .error cleanup => report (.settlingFailed cleanup)
    | .ok _ => pure ()
    throw fault
  | .ok _ =>
    match ← attempt settle with
    | .error fault => report (.movingDeferred fault)
    | .ok _ => pure ()
    report (.rotated resealed.length)

def isBlank (phrase : String) : Bool := phrase.toList.all Unicode.isBlank

/-- Seals a phrase for an owner that has none. -/
def sealFor (owner phrase password : String) : Action SealedPhrase := do
  if owner = "" then throw (.invalidOwner owner)
  if isBlank phrase then throw (.input .emptyPhrase)
  exclusive
  let c ← requireCredential
  demand c password
  if (← fetch (Key.phrase owner)).isSome then throw (.phraseExists owner)
  let p ← sealPhrase owner phrase c password
  savePhrase p
  report (.phraseSealed owner)
  return p

/-- Seals a phrase for a freshly minted owner. -/
def sealNew (phrase password : String) : Action SealedPhrase := do
  sealFor (← mint) phrase password

/-- The phrase of an owner. The password is not verified. -/
def reveal (owner password : String) : Action String := do
  shared
  let c ← requireCredential
  openPhrase (← requirePhrase owner) c password

def hasPhrase (owner : String) : Action Bool := do
  shared
  return (← fetch (Key.phrase owner)).isSome

def owners : Action (List String) := do
  shared
  sealedOwners

def remove (owner : String) : Action Unit := do
  exclusive
  if (← fetch (Key.phrase owner)).isNone then throw (.phraseNotFound owner)
  erase (Key.phrase owner)
  report (.phraseRemoved owner)

def deletePhrases : List String → Action Unit
  | [] => return
  | owner :: owners => do
    erase (Key.phrase owner)
    deletePhrases owners

/-- Removes the credential and every phrase. -/
def wipe : Action Unit := do
  exclusive
  let owners ← sealedOwners
  deletePhrases owners
  erase Key.credential
  report (.wiped owners.length)

end PhraseVault.Vault
