import PhraseVault.Cipher.Counter
import PhraseVault.Cipher.Iv

/-!
# Sealing a text

A text is padded to whole blocks, encrypted in counter mode and written in Base64. Opening never
notices a wrong key: it then yields some other text.
-/
namespace PhraseVault.Sealing

def keyLength : Nat := 32

/-- Adds one to sixteen bytes, each holding their number. -/
def pad (b : Bytes) : Bytes :=
  let n := Counter.blockLength - b.length % Counter.blockLength
  b ++ List.replicate n (UInt8.ofNat n)

/-- Takes well-formed padding off; anything else is left alone. -/
def unpad (b : Bytes) : Bytes :=
  match b.getLast? with
  | none => b
  | some last =>
    let n := last.toNat
    if 1 ≤ n ∧ n ≤ Counter.blockLength ∧ n ≤ b.length ∧ (b.drop (b.length - n)).all (· == last) then
      b.take (b.length - n)
    else b

/-- The first block of a vector, where counting starts. -/
def counterBlock (iv : Iv) : Except Primitive.Fault Bytes := do
  let b ← iv.unpack
  if b.length < Counter.blockLength then throw (.ivLength Counter.blockLength b.length)
  return b.take Counter.blockLength

/-- The start of the count, once key and vector are found long enough. -/
def start (key : Bytes) (iv : Iv) : Except Primitive.Fault Bytes :=
  if key.length ≠ keyLength then .error (.keyLength keyLength key.length) else counterBlock iv

def encrypt (text : String) (key : Bytes) (iv : Iv) : Except Primitive.Fault String := do
  let counter ← start key iv
  return Base64.encode (Counter.apply key counter (pad (Utf8.encode text)))

def decrypt (sealedText : String) (key : Bytes) (iv : Iv) : Except Primitive.Fault String := do
  let counter ← start key iv
  let data ← (Base64.decode sealedText).mapError .base64
  return Utf8.decodeLossy (unpad (Counter.apply key counter data))

end PhraseVault.Sealing
