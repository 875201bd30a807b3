import PhraseVault.Codec.Hex
import PhraseVault.Codec.Base64

/-!
# What a primitive can object to
-/
namespace PhraseVault

inductive Primitive.Fault where
  | keyLength (expected actual : Nat)
  | ivLength (expected actual : Nat)
  | notText (fault : Utf8.Fault)
  | base64 (fault : Base64.Fault)
  | hex (fault : Hex.Fault)
  deriving DecidableEq

def Primitive.Fault.message : Primitive.Fault → String
  | .keyLength e a => s!"invalid key length: expected {e}, got {a}"
  | .ivLength e a => s!"invalid iv length: expected at least {e}, got {a}"
  | .notText f => s!"input encoding error: {f.message}"
  | .base64 f => s!"base64 decode error: {f.message}"
  | .hex f => s!"hex decode error: {f.message}"

end PhraseVault
