import PhraseVault.Cipher.Aes

/-!
# Counter mode

The key stream is the encryption of a number of sixteen bytes, counted up block by block and
starting over at zero after the largest.
-/
namespace PhraseVault.Counter

def blockLength : Nat := 16

def keystreamFrom (keys : List Aes.Block) (counter : Nat) : (count : Nat) → Bytes
  | 0 => []
  | count + 1 =>
    (Aes.encryptWith keys (.ofBytes (Bytes.ofNatBE blockLength counter))).toBytes ++
      keystreamFrom keys (counter + 1) count

/-- At least `length` bytes of the key stream. -/
def keystream (key counter : Bytes) (length : Nat) : Bytes :=
  keystreamFrom (Aes.roundKeys key) (Bytes.toNatBE counter) ((length + 15) / 16)

private theorem length_keystreamFrom (keys : List Aes.Block) (counter count : Nat) :
    (keystreamFrom keys counter count).length = 16 * count := by
  induction count generalizing counter with
  | zero => rfl
  | succ count ih => simp [keystreamFrom, ih]; omega

theorem le_length_keystream (key counter : Bytes) (length : Nat) :
    length ≤ (keystream key counter length).length := by
  simp only [keystream, length_keystreamFrom]; omega

/-- Encrypts and decrypts. -/
def apply (key counter data : Bytes) : Bytes := data.xor (keystream key counter data.length)

@[simp] theorem length_apply (key counter data : Bytes) :
    (apply key counter data).length = data.length := by
  have := le_length_keystream key counter data.length
  simp [apply]; omega

end PhraseVault.Counter
