import PhraseVault.Json.Reader
import PhraseVault.Cipher.Sealing

/-!
# A sealed recovery phrase

A wallet's phrase as it is stored: its owner, the ciphertext, and the vector used for it alone.
-/
namespace PhraseVault
open Json

namespace Iv

def recordName : String := "InitializationVector"

def writeWords : List Int32 → Bytes
  | [] => []
  | [w] => writeInt w.toInt
  | w :: ws => writeInt w.toInt ++ ascii ',' :: writeWords ws

def write (iv : Iv) : Bytes :=
  ascii '{' :: writeText "words" ++ ascii ':' :: ascii '[' :: writeWords iv.words ++
    ascii ']' :: ascii ',' :: writeText "sigBytes" ++ ascii ':' :: writeNat iv.sigBytes ++
    [ascii '}']

/-- The members seen so far. -/
structure Draft where
  words : Option (List Int32)
  sigBytes : Option Nat

def member : MemberReader Draft := fun name d bytes =>
  if name = "words" then
    (once name d.words (list int32) bytes).map fun (x, rest) => ({ d with words := some x }, rest)
  else if name = "sigBytes" then
    (once name d.sigBytes size bytes).map fun (x, rest) => ({ d with sigBytes := some x }, rest)
  else ignored d bytes

def finish (d : Draft) : Except Json.Fault Iv := do
  let words ← required "words" d.words
  let sigBytes ← required "sigBytes" d.sigBytes
  return ⟨words, sigBytes⟩

def inOrder : Reader Iv := fun bytes => do
  let (words, rest) ← element recordName 2 0 (list int32) bytes
  let (sigBytes, rest) ← element recordName 2 1 size rest
  return (⟨words, sigBytes⟩, rest)

def reader : Reader Iv := record recordName ⟨none, none⟩ member finish inOrder

end Iv

structure SealedPhrase where
  owner : String
  cipher : String
  iv : Iv
  deriving DecidableEq, Repr

namespace SealedPhrase

def recordName : String := "EncryptedSecret"

def write (p : SealedPhrase) : Bytes :=
  ascii '{' :: writeText "ownerId" ++ ascii ':' :: writeText p.owner ++
    ascii ',' :: writeText "cipher" ++ ascii ':' :: writeText p.cipher ++
    ascii ',' :: writeText "iv" ++ ascii ':' :: p.iv.write ++ [ascii '}']

/-- The members seen so far. -/
structure Draft where
  owner : Option String
  cipher : Option String
  iv : Option Iv

def member : MemberReader Draft := fun name d bytes =>
  if name = "ownerId" then
    (once name d.owner text bytes).map fun (s, rest) => ({ d with owner := some s }, rest)
  else if name = "cipher" then
    (once name d.cipher text bytes).map fun (s, rest) => ({ d with cipher := some s }, rest)
  else if name = "iv" then
    (once name d.iv Iv.reader bytes).map fun (x, rest) => ({ d with iv := some x }, rest)
  else ignored d bytes

def finish (d : Draft) : Except Json.Fault SealedPhrase := do
  let owner ← required "ownerId" d.owner
  let cipher ← required "cipher" d.cipher
  let iv ← required "iv" d.iv
  return ⟨owner, cipher, iv⟩

def inOrder : Reader SealedPhrase := fun bytes => do
  let (owner, rest) ← element recordName 3 0 text bytes
  let (cipher, rest) ← element recordName 3 1 text rest
  let (iv, rest) ← element recordName 3 2 Iv.reader rest
  return (⟨owner, cipher, iv⟩, rest)

def reader : Reader SealedPhrase := record recordName ⟨none, none, none⟩ member finish inOrder

def read (bytes : Bytes) : Except Json.Fault SealedPhrase := whole reader bytes

end SealedPhrase
end PhraseVault
