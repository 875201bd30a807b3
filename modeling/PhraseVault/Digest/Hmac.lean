import PhraseVault.Digest.Sha256

/-!
# Keyed digests and key stretching

`hmac` keys SHA-256, and `stretch` spreads a password and a salt over any number of bytes by one
round of `hmac` for every 32 of them.
-/
namespace PhraseVault.Hmac

def blockLength : Nat := 64

/-- A key of one block: long keys are hashed first, short ones are filled up with zeros. -/
def keyBlock (key : Bytes) : Bytes :=
  Bytes.zeroFill blockLength (if blockLength < key.length then Sha256.hash key else key)

def hmac (key message : Bytes) : Bytes :=
  let block := keyBlock key
  Sha256.hash (block.map (· ^^^ 0x5c) ++ Sha256.hash (block.map (· ^^^ 0x36) ++ message))

@[simp] theorem length_hmac (key message : Bytes) : (hmac key message).length = 32 := rfl

theorem hmac_eq_of_keyBlock_eq {k l : Bytes} (h : keyBlock k = keyBlock l) (message : Bytes) :
    hmac k message = hmac l message := by
  simp only [hmac, h]

/-- The blocks of the stretched key from the given number on. -/
def stretchFrom (password salt : Bytes) (block : Nat) : (count : Nat) → Bytes
  | 0 => []
  | count + 1 =>
    hmac password (salt ++ Bytes.ofNatBE 4 block) ++ stretchFrom password salt (block + 1) count

/-- Stretches a password to `length` bytes. -/
def stretch (password salt : Bytes) (length : Nat) : Bytes :=
  (stretchFrom password salt 1 ((length + 31) / 32)).take length

private theorem length_stretchFrom (password salt : Bytes) (block count : Nat) :
    (stretchFrom password salt block count).length = 32 * count := by
  induction count generalizing block with
  | zero => rfl
  | succ count ih => simp [stretchFrom, ih]; omega

@[simp] theorem length_stretch (password salt : Bytes) (length : Nat) :
    (stretch password salt length).length = length := by
  simp [stretch, length_stretchFrom]; omega

end PhraseVault.Hmac
