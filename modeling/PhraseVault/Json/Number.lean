import PhraseVault.Json.Text

/-!
# Numbers of a record

A number without point and exponent that fits into 64 bits is an integer; any other is a binary
floating point number, computed from at most as many digits as fit into 64 bits.
-/
namespace PhraseVault.Json

inductive Number where
  | integer (n : Int)
  | real (x : Binary64)
  deriving DecidableEq

def Number.found : Number → Found
  | .integer n => .integer n
  | .real x => .real x

def isDigit (b : UInt8) : Bool := 48 ≤ b && b ≤ 57

def digitValue (b : UInt8) : Nat := b.toNat - 48

def isMarker (c : Char) (b : Bytes) : Bool := b.head? == some (ascii c)

def startsExponent (b : Bytes) : Bool := isMarker 'e' b || isMarker 'E' b

/-- One more than the largest number of 64 bits. -/
def wordLimit : Nat := 0x10000000000000000

/-- Appends digits to `n` while the number fits into 64 bits; also how many were taken. -/
def absorb (n : Nat) : Bytes → Nat × Nat
  | [] => (n, 0)
  | d :: ds =>
    let next := n * 10 + digitValue d
    if next < wordLimit then
      let (m, taken) := absorb next ds
      (m, taken + 1)
    else (n, 0)

def powerOfTen (n : Nat) : Binary64 := .ofNat (Nat.pow 10 n)

/-- Divides by `10 ^ 308` until the rest of the exponent is a power in range. -/
def scaleDown : (steps : Nat) → Binary64 → Nat → Binary64
  | 0, x, _ => x
  | steps + 1, x, exponent =>
    if exponent ≤ 308 then (x.div? (powerOfTen exponent)).getD .zero
    else if x.mantissa = 0 then x
    else scaleDown steps ((x.div? (powerOfTen 308)).getD .zero) (exponent - 308)

/-- Three divisions by `10 ^ 308` leave nothing of a number of 64 bits. -/
def scale (n : Nat) (exponent : Int) : Except Fault Binary64 :=
  let x := Binary64.ofNat n
  if exponent < 0 then .ok (scaleDown 3 x (-exponent).toNat)
  else if exponent ≤ 308 then
    match x.mul? (powerOfTen exponent.toNat) with
    | some y => .ok y
    | none => .error .numberOutOfRange
  else if n = 0 then .ok .zero
  else .error .numberOutOfRange

def signed (negative : Bool) (x : Binary64) : Number := .real { x with negative }

def maxExponentText : Nat := 2147483647

/-- Reads what follows the letter of an exponent. -/
def readExponent (negative : Bool) (n : Nat) (start : Int) (b : Bytes) :
    Except Fault (Number × Bytes) := do
  let down := isMarker '-' b
  let b := if down || isMarker '+' b then b.tail else b
  let digits := b.takeWhile isDigit
  let rest := b.dropWhile isDigit
  if b.isEmpty then throw .endInValue
  if digits.isEmpty then throw .invalidNumber
  let e := digits.foldl (fun e d => e * 10 + digitValue d) 0
  if maxExponentText < e then
    if n ≠ 0 && !down then throw .numberOutOfRange
    return (signed negative .zero, rest)
  let x ← scale n (if down then start - e else start + e)
  return (signed negative x, rest)

/-- Ends a number that has a point or too many digits. -/
def readScale (negative : Bool) (n : Nat) (exponent : Int) (b : Bytes) :
    Except Fault (Number × Bytes) := do
  if startsExponent b then readExponent negative n exponent b.tail
  else return (signed negative (← scale n exponent), b)

/-- Reads what follows the point. -/
def readFraction (negative : Bool) (n : Nat) (exponent : Int) (b : Bytes) :
    Except Fault (Number × Bytes) := do
  let digits := b.takeWhile isDigit
  let rest := b.dropWhile isDigit
  if digits.isEmpty then throw (if rest.isEmpty then .endInValue else .invalidNumber)
  let (n, taken) := absorb n digits
  readScale negative n (exponent - taken) rest

/-- Minus zero and what passes 64 bits are no integers. -/
def integerOrReal (negative : Bool) (n : Nat) : Number :=
  if !negative then .integer n
  else if 0 < n ∧ n ≤ 0x8000000000000000 then .integer (-n)
  else signed true (.ofNat n)

/-- Reads a number after its sign. -/
def readNumber (negative : Bool) (b : Bytes) : Except Fault (Number × Bytes) := do
  let digits := b.takeWhile isDigit
  let rest := b.dropWhile isDigit
  if b.isEmpty then throw .endInValue
  if digits.isEmpty || (isMarker '0' digits && 1 < digits.length) then throw .invalidNumber
  let (n, taken) := absorb 0 digits
  let exponent : Int := digits.length - taken
  if isMarker '.' rest then readFraction negative n exponent rest.tail
  else if startsExponent rest then readExponent negative n exponent rest.tail
  else if taken < digits.length then return (signed negative (← scale n exponent), rest)
  else return (integerOrReal negative n, rest)

/-- Passes over what follows the letter of an exponent. -/
def skipExponent (b : Bytes) : Except Fault Bytes :=
  let b := if isMarker '-' b || isMarker '+' b then b.tail else b
  if (b.takeWhile isDigit).isEmpty then .error .invalidNumber else .ok (b.dropWhile isDigit)

/-- Passes over a number after its sign. -/
def skipNumber (b : Bytes) : Except Fault Bytes := do
  let digits := b.takeWhile isDigit
  let rest := b.dropWhile isDigit
  if digits.isEmpty || (isMarker '0' digits && 1 < digits.length) then throw .invalidNumber
  if isMarker '.' rest then
    let rest := rest.tail
    if (rest.takeWhile isDigit).isEmpty then throw .invalidNumber
    let rest := rest.dropWhile isDigit
    if startsExponent rest then skipExponent rest.tail else return rest
  else if startsExponent rest then skipExponent rest.tail
  else return rest

def writeNat (n : Nat) : Bytes := (Nat.toDigits 10 n).map ascii

def writeInt (n : Int) : Bytes :=
  if n < 0 then ascii '-' :: writeNat n.natAbs else writeNat n.natAbs

end PhraseVault.Json
