import PhraseVault.Cipher.Iv

/-!
# Random bytes

An entropy source is a stream of bytes and the place reached in it. Every draw takes the next bytes
and moves on, so no two draws share a byte.
-/
namespace PhraseVault

structure Entropy where
  stream : Nat → UInt8
  position : Nat

namespace Entropy

/-- The bytes of the stream in `[position, position + n)`. -/
def peek (e : Entropy) (n : Nat) : Bytes := (List.range' e.position n).map e.stream

def advance (e : Entropy) (n : Nat) : Entropy := ⟨e.stream, e.position + n⟩

def draw (n : Nat) (e : Entropy) : Bytes × Entropy := (e.peek n, e.advance n)

@[simp] theorem length_peek (e : Entropy) (n : Nat) : (e.peek n).length = n := by simp [peek]

def generator (s : UInt64) : UInt64 := s * 6364136223846793005 + 1442695040888963407

def generate : (steps : Nat) → UInt64 → UInt64
  | 0, s => s
  | steps + 1, s => generate steps (generator s)

/-- A stream that a seed determines, for runs that have to be repeatable: the high bytes of a
congruential generator. -/
def seeded (seed : UInt64) : Entropy := ⟨fun i => (generate (i + 1) seed >>> 56).toUInt8, 0⟩

/-- Number of random bytes behind a salt. -/
def saltLength : Nat := 64

/-- A salt is drawn as bytes and kept as text. -/
def saltOf (b : Bytes) : String := Hex.encode b

def drawSalt (e : Entropy) : String × Entropy := (saltOf (e.peek saltLength), e.advance saltLength)

def drawIv (e : Entropy) : Iv × Entropy :=
  (Iv.pack (e.peek Iv.freshLength), e.advance Iv.freshLength)

end Entropy
end PhraseVault
