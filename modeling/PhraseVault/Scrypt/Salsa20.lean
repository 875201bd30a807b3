import PhraseVault.Bytes

/-!
# The Salsa20/8 core

A permutation of blocks of sixteen words, added to its input.
-/
namespace PhraseVault.Salsa20

structure Block where
  (x₀ x₁ x₂ x₃ x₄ x₅ x₆ x₇ x₈ x₉ x₁₀ x₁₁ x₁₂ x₁₃ x₁₄ x₁₅ : UInt32)
  deriving DecidableEq, Inhabited

namespace Block

def ofWords : List UInt32 → Block
  | [a, b, c, d, e, f, g, h, i, j, k, l, m, n, o, p] =>
    ⟨a, b, c, d, e, f, g, h, i, j, k, l, m, n, o, p⟩
  | _ => default

def words (b : Block) : List UInt32 :=
  [b.x₀, b.x₁, b.x₂, b.x₃, b.x₄, b.x₅, b.x₆, b.x₇, b.x₈, b.x₉, b.x₁₀, b.x₁₁, b.x₁₂, b.x₁₃, b.x₁₄,
    b.x₁₅]

def xor (a b : Block) : Block :=
  ⟨a.x₀ ^^^ b.x₀, a.x₁ ^^^ b.x₁, a.x₂ ^^^ b.x₂, a.x₃ ^^^ b.x₃, a.x₄ ^^^ b.x₄, a.x₅ ^^^ b.x₅,
    a.x₆ ^^^ b.x₆, a.x₇ ^^^ b.x₇, a.x₈ ^^^ b.x₈, a.x₉ ^^^ b.x₉, a.x₁₀ ^^^ b.x₁₀, a.x₁₁ ^^^ b.x₁₁,
    a.x₁₂ ^^^ b.x₁₂, a.x₁₃ ^^^ b.x₁₃, a.x₁₄ ^^^ b.x₁₄, a.x₁₅ ^^^ b.x₁₅⟩

def add (a b : Block) : Block :=
  ⟨a.x₀ + b.x₀, a.x₁ + b.x₁, a.x₂ + b.x₂, a.x₃ + b.x₃, a.x₄ + b.x₄, a.x₅ + b.x₅,
    a.x₆ + b.x₆, a.x₇ + b.x₇, a.x₈ + b.x₈, a.x₉ + b.x₉, a.x₁₀ + b.x₁₀, a.x₁₁ + b.x₁₁,
    a.x₁₂ + b.x₁₂, a.x₁₃ + b.x₁₃, a.x₁₄ + b.x₁₄, a.x₁₅ + b.x₁₅⟩

end Block

@[inline] def rotateLeft (w n : UInt32) : UInt32 := (w <<< n) ||| (w >>> (32 - n))

@[inline] def quarter (a b c d : UInt32) : UInt32 × UInt32 × UInt32 × UInt32 :=
  let b := b ^^^ rotateLeft (a + d) 7
  let c := c ^^^ rotateLeft (b + a) 9
  let d := d ^^^ rotateLeft (c + b) 13
  let a := a ^^^ rotateLeft (d + c) 18
  (a, b, c, d)

/-- Columns first, then rows, each from its diagonal word on. -/
def doubleRound (s : Block) : Block :=
  let (x₀, x₄, x₈, x₁₂) := quarter s.x₀ s.x₄ s.x₈ s.x₁₂
  let (x₅, x₉, x₁₃, x₁) := quarter s.x₅ s.x₉ s.x₁₃ s.x₁
  let (x₁₀, x₁₄, x₂, x₆) := quarter s.x₁₀ s.x₁₄ s.x₂ s.x₆
  let (x₁₅, x₃, x₇, x₁₁) := quarter s.x₁₅ s.x₃ s.x₇ s.x₁₁
  let (x₀, x₁, x₂, x₃) := quarter x₀ x₁ x₂ x₃
  let (x₅, x₆, x₇, x₄) := quarter x₅ x₆ x₇ x₄
  let (x₁₀, x₁₁, x₈, x₉) := quarter x₁₀ x₁₁ x₈ x₉
  let (x₁₅, x₁₂, x₁₃, x₁₄) := quarter x₁₅ x₁₂ x₁₃ x₁₄
  ⟨x₀, x₁, x₂, x₃, x₄, x₅, x₆, x₇, x₈, x₉, x₁₀, x₁₁, x₁₂, x₁₃, x₁₄, x₁₅⟩

def core (b : Block) : Block := b.add (doubleRound (doubleRound (doubleRound (doubleRound b))))

end PhraseVault.Salsa20
