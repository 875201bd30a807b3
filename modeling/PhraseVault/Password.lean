import PhraseVault.Fault
import PhraseVault.Scrypt.Mix
import PhraseVault.Unicode.Normal

/-!
# What a password is turned into

A password is brought to composed normal form, so that spellings which look alike derive alike, and
its UTF-8 bytes are stretched with a salt. The first half of the derived bytes is a cipher key.
-/
namespace PhraseVault.Password

def cost : Scrypt.Cost := ⟨11, 8, 1⟩

def derivedLength : Nat := 64

def keyLength : Nat := 32

def derive (password : String) (salt : Bytes) : Bytes :=
  Scrypt.derive cost (Utf8.encode (Unicode.normalize password)) salt derivedLength

@[simp] theorem length_derive (password : String) (salt : Bytes) :
    (derive password salt).length = derivedLength := by
  simp [derive]

/-- Derives from bytes, which have to be text. -/
def deriveBytes (password salt : Bytes) : Except Primitive.Fault Bytes :=
  match Utf8.decode password with
  | .ok text => .ok (derive text salt)
  | .error f => .error (.notText f)

def cipherKey (password : String) (salt : Bytes) : Bytes := (derive password salt).take keyLength

@[simp] theorem length_cipherKey (password : String) (salt : Bytes) :
    (cipherKey password salt).length = keyLength := by
  simp [cipherKey, derivedLength, keyLength]

theorem derive_congr {p q : String} (h : Unicode.normalize p = Unicode.normalize q) (salt : Bytes) :
    derive p salt = derive q salt := by
  simp only [derive, h]

theorem cipherKey_congr {p q : String} (h : Unicode.normalize p = Unicode.normalize q)
    (salt : Bytes) : cipherKey p salt = cipherKey q salt := by
  simp only [cipherKey, derive_congr h]

end PhraseVault.Password
