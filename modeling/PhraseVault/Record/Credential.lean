import PhraseVault.Json.Reader
import PhraseVault.Password

/-!
# The password credential

What is kept of the password: the hex text of the bytes derived from it with one salt, and a second
salt for the key of the sealed phrases.
-/
namespace PhraseVault
open Json

structure Credential where
  hash : String
  salt : String
  keySalt : String
  deriving DecidableEq, Repr

namespace Credential

def recordName : String := "PasswordCredential"

def write (c : Credential) : Bytes :=
  ascii '{' :: writeText "hash" ++ ascii ':' :: writeText c.hash ++
    ascii ',' :: writeText "salt" ++ ascii ':' :: writeText c.salt ++
    ascii ',' :: writeText "keySalt" ++ ascii ':' :: writeText c.keySalt ++ [ascii '}']

/-- The members seen so far. -/
structure Draft where
  hash : Option String
  salt : Option String
  keySalt : Option String

def member : MemberReader Draft := fun name d bytes =>
  if name = "hash" then
    (once name d.hash text bytes).map fun (s, rest) => ({ d with hash := some s }, rest)
  else if name = "salt" then
    (once name d.salt text bytes).map fun (s, rest) => ({ d with salt := some s }, rest)
  else if name = "keySalt" then
    (once name d.keySalt text bytes).map fun (s, rest) => ({ d with keySalt := some s }, rest)
  else ignored d bytes

def finish (d : Draft) : Except Json.Fault Credential := do
  let hash ← required "hash" d.hash
  let salt ← required "salt" d.salt
  let keySalt ← required "keySalt" d.keySalt
  return ⟨hash, salt, keySalt⟩

def inOrder : Reader Credential := fun bytes => do
  let (hash, rest) ← element recordName 3 0 text bytes
  let (salt, rest) ← element recordName 3 1 text rest
  let (keySalt, rest) ← element recordName 3 2 text rest
  return (⟨hash, salt, keySalt⟩, rest)

def reader : Reader Credential := record recordName ⟨none, none, none⟩ member finish inOrder

def read (bytes : Bytes) : Except Json.Fault Credential := whole reader bytes

/-- What keeps a stored hash from being compared. -/
inductive HashFault where
  | hex (fault : Hex.Fault)
  | length (actual : Nat)
  deriving DecidableEq

def HashFault.message : HashFault → String
  | .hex f => (Primitive.Fault.hex f).message
  | .length n => s!"hash is {n} bytes, expected {Password.derivedLength}"

def hashBytes (c : Credential) : Except HashFault Bytes :=
  match Hex.decode c.hash with
  | .error f => .error (.hex f)
  | .ok b => if b.length = Password.derivedLength then .ok b else .error (.length b.length)

def create (password salt keySalt : String) : Credential :=
  ⟨Hex.encode (Password.derive password (Utf8.encode salt)), salt, keySalt⟩

def accepts (c : Credential) (password : String) : Except HashFault Bool := do
  let expected ← c.hashBytes
  return Bytes.sameBytes (Password.derive password (Utf8.encode c.salt)) expected

def cipherKey (c : Credential) (password : String) : Bytes :=
  Password.cipherKey password (Utf8.encode c.keySalt)

end Credential
end PhraseVault
