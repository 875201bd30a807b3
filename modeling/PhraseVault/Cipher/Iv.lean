import PhraseVault.Fault

/-!
# Initialization vectors

A vector is kept as signed words, most significant byte first, with the number of its bytes that
count. Packing fills up the last word with zeros.
-/
namespace PhraseVault

structure Iv where
  words : List Int32
  sigBytes : Nat
  deriving DecidableEq, Repr

namespace Iv

/-- The length of a freshly drawn vector. -/
def freshLength : Nat := 24

def packWords : Bytes → List Int32
  | [] => []
  | [a] => [(Bytes.wordBE a 0 0 0).toInt32]
  | [a, b] => [(Bytes.wordBE a b 0 0).toInt32]
  | [a, b, c] => [(Bytes.wordBE a b c 0).toInt32]
  | a :: b :: c :: d :: rest => (Bytes.wordBE a b c d).toInt32 :: packWords rest

def pack (b : Bytes) : Iv := ⟨packWords b, b.length⟩

def wordBytes (words : List Int32) : Bytes := words.flatMap fun w => Bytes.ofWordBE w.toUInt32

/-- The bytes that count; there have to be words enough for them. -/
def unpack (iv : Iv) : Except Primitive.Fault Bytes :=
  if iv.words.length * 4 < iv.sigBytes then
    .error (.ivLength iv.sigBytes (iv.words.length * 4))
  else .ok ((wordBytes iv.words).take iv.sigBytes)

def length (iv : Iv) : Nat := iv.sigBytes

def isEmpty (iv : Iv) : Bool := iv.sigBytes == 0

end Iv
end PhraseVault
