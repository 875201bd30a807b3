/-!
# Binary floating point

Finite numbers of 53 significant bits, as exact integers. Every operation computes the exact ratio
and rounds once, to the nearest number and to the even one of two.
-/
namespace PhraseVault

/-- The number `mantissa * 2 ^ exponent`, negated if `negative`. -/
structure Binary64 where
  negative : Bool
  mantissa : Nat
  exponent : Int
  deriving DecidableEq

namespace Binary64

def minExponent : Int := -1074

def maxExponent : Int := 971

/-- The least mantissa, but for numbers close to zero. -/
def leastMantissa : Nat := 0x10000000000000

/-- One more than the largest mantissa. -/
def mantissaLimit : Nat := 0x20000000000000

def zero : Binary64 := ⟨false, 0, minExponent⟩

/-- The magnitude as a ratio of two numbers. -/
def ratio (x : Binary64) : Nat × Nat :=
  (x.mantissa * Nat.pow 2 x.exponent.toNat, Nat.pow 2 (-x.exponent).toNat)

/-- `num / den` in units of `2 ^ e`, rounded to the nearest and on a tie to the even. -/
def roundUnits (num den : Nat) (e : Int) : Nat :=
  let num := num * Nat.pow 2 (-e).toNat
  let den := den * Nat.pow 2 e.toNat
  let q := num / den
  let r := num % den
  if den < 2 * r ∨ (den = 2 * r ∧ q % 2 = 1) then q + 1 else q

/-- The number nearest to a ratio, unless it is past the largest. -/
def ofRatio? (num den : Nat) : Option Binary64 :=
  let low := max minExponent ((num.log2 : Int) - (den.log2 : Int) - 53)
  let whole := num * Nat.pow 2 (-low).toNat / (den * Nat.pow 2 low.toNat)
  let e := if mantissaLimit ≤ whole then low + 1 else low
  let m := roundUnits num den e
  let (m, e) := if m = mantissaLimit then (leastMantissa, e + 1) else (m, e)
  if maxExponent < e then none else some ⟨false, m, e⟩

def ofNat (n : Nat) : Binary64 := (ofRatio? n 1).getD zero

/-- Multiplies magnitudes. -/
def mul? (x y : Binary64) : Option Binary64 :=
  ofRatio? (x.ratio.1 * y.ratio.1) (x.ratio.2 * y.ratio.2)

/-- Divides magnitudes. -/
def div? (x y : Binary64) : Option Binary64 :=
  ofRatio? (x.ratio.1 * y.ratio.2) (x.ratio.2 * y.ratio.1)

end Binary64
end PhraseVault
