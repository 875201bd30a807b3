import PhraseVault.Number.Binary64

/-!
# The shortest decimal that reads back

Of the decimals with one digit, two digits and so on up to seventeen, the first that lies among the
reals rounding to the number is taken, and of two such the nearer one. If both are as near, the even
one is taken.
-/
namespace PhraseVault.Shortest

/-- The digits of a decimal and the power of ten of the first of them. -/
structure Decimal where
  digits : Nat
  exponent : Int

/-- Four times a magnitude, and the ends of the reals that round to it, as numerators over one
denominator. -/
structure Interval where
  low : Nat
  mid : Nat
  high : Nat
  den : Nat
  closed : Bool

def Interval.of (x : Binary64) : Interval :=
  let up := Nat.pow 2 x.exponent.toNat
  let narrow := x.mantissa = Binary64.leastMantissa ∧ Binary64.minExponent < x.exponent
  ⟨(4 * x.mantissa - if narrow then 1 else 2) * up, 4 * x.mantissa * up, (4 * x.mantissa + 2) * up,
    4 * Nat.pow 2 (-x.exponent).toNat, x.mantissa % 2 = 0⟩

def Interval.holds (i : Interval) (num den : Nat) : Bool :=
  let a := num * i.den
  if i.closed then i.low * den ≤ a && a ≤ i.high * den else i.low * den < a && a < i.high * den

/-- The power of ten of the first digit of `num / den`, which is not zero. -/
def leadingExponent (num den : Nat) : Int :=
  if den ≤ num then ((Nat.toDigits 10 (num / den)).length : Int) - 1
  else
    let k := (Nat.toDigits 10 (den / num)).length
    if den ≤ num * Nat.pow 10 (k - 1) then -((k : Int) - 1) else -(k : Int)

/-- The nearest decimal with the last digit at `10 ^ unit` that rounds to the number, if any. -/
def onGrid (i : Interval) (unit : Int) : Option Nat :=
  let num := i.mid * Nat.pow 10 (-unit).toNat
  let den := i.den * Nat.pow 10 unit.toNat
  let q := num / den
  let inside (n : Nat) : Bool := i.holds (n * Nat.pow 10 unit.toNat) (Nat.pow 10 (-unit).toNat)
  let rest := 2 * (num % den)
  let nearer := if rest < den ∨ (rest = den ∧ q % 2 = 0) then q else q + 1
  let other := if nearer = q then q + 1 else q
  if inside nearer then some nearer else if inside other then some other else none

def search (i : Interval) (lead : Int) : (count : Nat) → (width : Nat) → Decimal
  | 0, _ => ⟨0, 0⟩
  | count + 1, width =>
    match onGrid i (lead - width + 1) with
    | some n =>
      if n = Nat.pow 10 width then ⟨Nat.pow 10 (width - 1), lead + 1⟩ else ⟨n, lead⟩
    | none => search i lead count (width + 1)

/-- The shortest decimal of a magnitude other than zero. -/
def ofBinary64 (x : Binary64) : Decimal :=
  let i := Interval.of x
  search i (leadingExponent i.mid i.den) 17 1

end Shortest

namespace Binary64

private def trimZeros (ds : List Char) : List Char := (ds.reverse.dropWhile (· == '0')).reverse

/-- Plain notation with a point for a first digit between the fifth place after the point and the
sixteenth before it, else an exponent with its sign. -/
def toText (x : Binary64) : String :=
  let sign := if x.negative then ['-'] else []
  if x.mantissa = 0 then String.ofList (sign ++ ['0', '.', '0'])
  else
    let d := Shortest.ofBinary64 x
    let ds := trimZeros (Nat.toDigits 10 d.digits)
    let body :=
      if 0 ≤ d.exponent ∧ d.exponent ≤ 15 then
        let n := d.exponent.toNat + 1
        let whole := ds.take n ++ List.replicate (n - ds.length) '0'
        whole ++ '.' :: (if ds.length ≤ n then ['0'] else ds.drop n)
      else if -5 ≤ d.exponent ∧ d.exponent < 0 then
        '0' :: '.' :: List.replicate (-d.exponent - 1).toNat '0' ++ ds
      else
        let fraction := if ds.length ≤ 1 then [] else '.' :: ds.drop 1
        let power := if d.exponent < 0 then ['-'] else ['+']
        ds.take 1 ++ fraction ++ 'e' :: power ++ Nat.toDigits 10 d.exponent.natAbs
    String.ofList (sign ++ body)

end Binary64
end PhraseVault
