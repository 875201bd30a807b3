import PhraseVault.Record.Credential
import PhraseVault.Record.SealedPhrase
import PhraseVault.Store.Basic
import PhraseVault.Record.Key

/-!
# What a vault can object to
-/
namespace PhraseVault.Vault

/-- Why a password or a phrase cannot be used. -/
inductive InputFault where
  | notText (fault : Utf8.Fault)
  | emptyPassword
  | emptyPhrase
  deriving DecidableEq

def InputFault.message : InputFault → String
  | .notText f => f.message
  | .emptyPassword => "password is empty"
  | .emptyPhrase => "mnemonic is empty"

/-- Why a record that could be read cannot be used. -/
inductive Defect where
  | hash (fault : Credential.HashFault)
  | owner (actual : String)
  | cipher (fault : Primitive.Fault)
  deriving DecidableEq

def Defect.message : Defect → String
  | .hash f => f.message
  | .owner actual => s!"record belongs to owner {actual}"
  | .cipher f => f.message

inductive Fault where
  | primitive (fault : Primitive.Fault)
  | input (fault : InputFault)
  | io (fault : IoFault)
  | malformed (fault : Json.Fault)
  | corrupt (key : String) (defect : Defect)
  | credentialNotSet
  | wrongPassword
  | phraseNotFound (owner : String)
  | phraseExists (owner : String)
  | phrasesSealed (count : Nat)
  | invalidOwner (owner : String)
  /-- A staged rotation was found again right after it had been settled. -/
  | unsettled
  deriving DecidableEq

def Fault.message : Fault → String
  | .primitive f => s!"crypto error: {f.message}"
  | .input f => s!"input encoding error: {f.message}"
  | .io f => s!"io error: {f.message}"
  | .malformed f => s!"serde json error: {f.message}"
  | .corrupt key d => s!"corrupt record {key}: {d.message}"
  | .credentialNotSet => "no password credential has been set"
  | .wrongPassword => "wrong password"
  | .phraseNotFound o => s!"no sealed mnemonic for owner: {o}"
  | .phraseExists o => s!"a mnemonic is already sealed for owner: {o}"
  | .phrasesSealed n => s!"{n} sealed mnemonic(s) exist; use change_password to rotate"
  | .invalidOwner o => s!"invalid owner id: {Quoted.text o}"
  | .unsettled => "a settled password rotation was found again"

/-- Whether the store is at fault rather than the caller. -/
def Fault.isStorage : Fault → Bool
  | .io _ | .malformed _ | .corrupt .. | .unsettled => true
  | _ => false

/-- A primitive's complaint about text is one about the input. -/
def Fault.ofPrimitive : Primitive.Fault → Fault
  | .notText f => .input (.notText f)
  | f => .primitive f

/-- What opening a stored phrase complains of: the record's own text and vector are to blame. -/
def Fault.ofOpening (owner : String) : Primitive.Fault → Fault
  | .base64 f => .corrupt (Key.phrase owner) (.cipher (.base64 f))
  | .ivLength e a => .corrupt (Key.phrase owner) (.cipher (.ivLength e a))
  | f => .ofPrimitive f

end PhraseVault.Vault
