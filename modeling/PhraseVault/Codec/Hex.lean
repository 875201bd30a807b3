import PhraseVault.Bytes
import PhraseVault.Text.Utf8
import PhraseVault.Text.Quoted

/-!
# Hexadecimal text

Bytes are written with two lower-case digits each; both cases are read.
-/
namespace PhraseVault.Hex

def digit (n : Nat) : Char := if n < 10 then Char.ofNat (48 + n) else Char.ofNat (87 + n)

def digitValue? (b : UInt8) : Option Nat :=
  let n := b.toNat
  if 48 ≤ n ∧ n ≤ 57 then some (n - 48)
  else if 65 ≤ n ∧ n ≤ 70 then some (n - 55)
  else if 97 ≤ n ∧ n ≤ 102 then some (n - 87)
  else none

def encodeChars (b : Bytes) : List Char :=
  b.flatMap fun x => [digit (x.toNat / 16), digit (x.toNat % 16)]

def encode (b : Bytes) : String := String.ofList (encodeChars b)

inductive Fault where
  | oddLength
  | invalidDigit (byte : UInt8) (index : Nat)
  deriving DecidableEq

/-- An offending byte is shown as the character of that number. -/
def Fault.message : Fault → String
  | .oddLength => "Odd number of digits"
  | .invalidDigit b i => s!"Invalid character {Quoted.char (Char.ofNat b.toNat)} at position {i}"

def digitAt (index : Nat) (b : UInt8) : Except Fault Nat :=
  match digitValue? b with
  | some v => .ok v
  | none => .error (.invalidDigit b index)

/-- Reads digits in pairs; `index` counts the bytes before them. -/
def decodePairs (index : Nat) : Bytes → Except Fault Bytes
  | a :: b :: rest => do
    let high ← digitAt index a
    let low ← digitAt (index + 1) b
    let bytes ← decodePairs (index + 2) rest
    return UInt8.ofNat (high * 16 + low) :: bytes
  | _ => return []

def decodeBytes (b : Bytes) : Except Fault Bytes :=
  if b.length % 2 = 1 then .error .oddLength else decodePairs 0 b

/-- The bytes a text spells; an odd length is refused before any digit is looked at. -/
def decode (s : String) : Except Fault Bytes := decodeBytes (Utf8.encode s)

end PhraseVault.Hex
