import PhraseVault.Bytes
import PhraseVault.Text.Utf8

/-!
# Base64 text

Three bytes are written as four symbols. A last group of one or two bytes is written as two or three
symbols and filled up with `=`. Only what writing produces can be read.
-/
namespace PhraseVault.Base64

def symbol (n : Nat) : Char :=
  if n < 26 then Char.ofNat (65 + n)
  else if n < 52 then Char.ofNat (71 + n)
  else if n < 62 then Char.ofNat (n - 4)
  else if n = 62 then '+' else '/'

def symbolValue? (b : UInt8) : Option Nat :=
  let n := b.toNat
  if 65 ≤ n ∧ n ≤ 90 then some (n - 65)
  else if 97 ≤ n ∧ n ≤ 122 then some (n - 71)
  else if 48 ≤ n ∧ n ≤ 57 then some (n + 4)
  else if n = 43 then some 62
  else if n = 47 then some 63
  else none

/-- The byte of `=`. -/
def fill : UInt8 := 61

def encodeChars : Bytes → List Char
  | [] => []
  | [a] =>
    let n := a.toNat * 16
    [symbol (n / 64), symbol (n % 64), '=', '=']
  | [a, b] =>
    let n := (a.toNat * 256 + b.toNat) * 4
    [symbol (n / 4096), symbol (n / 64 % 64), symbol (n % 64), '=']
  | a :: b :: c :: rest =>
    let n := a.toNat * 65536 + b.toNat * 256 + c.toNat
    symbol (n / 262144) :: symbol (n / 4096 % 64) :: symbol (n / 64 % 64) :: symbol (n % 64) ::
      encodeChars rest

def encode (b : Bytes) : String := String.ofList (encodeChars b)

inductive Fault where
  | invalidSymbol (byte : UInt8) (offset : Nat)
  | invalidLength (length : Nat)
  | invalidPadding
  /-- The last symbol has bits beyond the last byte. -/
  | unusedBits (byte : UInt8) (offset : Nat)
  deriving DecidableEq

def Fault.message : Fault → String
  | .invalidSymbol b o => s!"Invalid symbol {b.toNat}, offset {o}."
  | .invalidLength n => s!"Invalid input length: {n}"
  | .invalidPadding => "Invalid padding"
  | .unusedBits b o => s!"Invalid last symbol {b.toNat}, offset {o}."

def symbolAt (offset : Nat) (b : UInt8) : Except Fault Nat :=
  match symbolValue? b with
  | some v => .ok v
  | none => .error (.invalidSymbol b offset)

def bytesOf (a b c d : Nat) : Bytes :=
  let n := a * 262144 + b * 4096 + c * 64 + d
  [UInt8.ofNat (n / 65536), UInt8.ofNat (n / 256), UInt8.ofNat n]

/-- The symbols of the last group up to the first `=`, and how many `=` follow. -/
def splitFill (offset index : Nat) : Bytes → Except Fault (Bytes × Nat)
  | [] => .ok ([], 0)
  | b :: rest =>
    if b = fill then
      if index < 2 then .error (.invalidSymbol b (offset + index))
      else if rest.all (· == fill) then .ok ([], rest.length + 1)
      else .error (.invalidSymbol fill (offset + index))
    else do
      let _ ← symbolAt (offset + index) b
      let (symbols, filled) ← splitFill offset (index + 1) rest
      return (b :: symbols, filled)

/-- Reads the last one to four bytes of a text. -/
def decodeLast (offset : Nat) (group : Bytes) : Except Fault Bytes := do
  let (symbols, filled) ← splitFill offset 0 group
  if symbols.length < 2 then throw (.invalidLength (offset + symbols.length))
  if symbols.length + filled ≠ 4 then throw .invalidPadding
  match symbols, symbols.filterMap symbolValue? with
  | [_, last], [a, b] =>
    if b % 16 ≠ 0 then throw (.unusedBits last (offset + 1))
    return (bytesOf a b 0 0).take 1
  | [_, _, last], [a, b, c] =>
    if c % 4 ≠ 0 then throw (.unusedBits last (offset + 2))
    return (bytesOf a b c 0).take 2
  | _, [a, b, c, d] => return bytesOf a b c d
  | _, _ => throw .invalidPadding

/-- Reads group by group; the group that nothing follows is the last. -/
def decodeGroups (offset : Nat) : Bytes → Except Fault Bytes
  | a :: b :: c :: d :: e :: rest => do
    let a ← symbolAt offset a
    let b ← symbolAt (offset + 1) b
    let c ← symbolAt (offset + 2) c
    let d ← symbolAt (offset + 3) d
    let bytes ← decodeGroups (offset + 4) (e :: rest)
    return bytesOf a b c d ++ bytes
  | [] => return []
  | group => decodeLast offset group

/-- A single symbol beyond whole groups is reported first if no text could hold it. -/
def decodeBytes (b : Bytes) : Except Fault Bytes :=
  match b.getLast? with
  | some last =>
    if b.length % 4 = 1 ∧ last ≠ fill ∧ symbolValue? last = none then
      .error (.invalidSymbol last (b.length - 1))
    else decodeGroups 0 b
  | none => .ok []

/-- The bytes a text spells. -/
def decode (s : String) : Except Fault Bytes := decodeBytes (Utf8.encode s)

end PhraseVault.Base64
