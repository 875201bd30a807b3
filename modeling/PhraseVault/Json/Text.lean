import PhraseVault.Json.Fault
import PhraseVault.Text.Utf8

/-!
# Quoted text of a record

Writing escapes the quote, the backslash and the controls. Reading knows every escape, joins
surrogate pairs, and checks only at the closing quote that the bytes are UTF-8. Skipping looks at
the escapes' shape alone.
-/
namespace PhraseVault.Json

/-- The byte of a character below U+0080. -/
abbrev ascii (c : Char) : UInt8 := UInt8.ofNat c.toNat

def isSpace (b : UInt8) : Bool := b == 0x20 || b == 0x09 || b == 0x0A || b == 0x0D

def skipSpace (b : Bytes) : Bytes := b.dropWhile isSpace

def hexDigit (n : Nat) : UInt8 := UInt8.ofNat (if n < 10 then 48 + n else 87 + n)

/-- The letter that stands for a control after a backslash. -/
def shortEscape? (c : Char) : Option Char :=
  match c with
  | '"' => some '"'
  | '\\' => some '\\'
  | '\x08' => some 'b'
  | '\x0C' => some 'f'
  | '\n' => some 'n'
  | '\r' => some 'r'
  | '\t' => some 't'
  | _ => none

def writeChar (c : Char) : Bytes :=
  match shortEscape? c with
  | some e => [ascii '\\', ascii e]
  | none =>
    if c.toNat < 0x20 then
      [ascii '\\', ascii 'u', ascii '0', ascii '0', hexDigit (c.toNat / 16),
        hexDigit (c.toNat % 16)]
    else Utf8.encodeChar c

def writeText (s : String) : Bytes := ascii '"' :: s.toList.flatMap writeChar ++ [ascii '"']

def hexValue? (b : UInt8) : Option Nat :=
  let n := b.toNat
  if 48 ≤ n ∧ n ≤ 57 then some (n - 48)
  else if 65 ≤ n ∧ n ≤ 70 then some (n - 55)
  else if 97 ≤ n ∧ n ≤ 102 then some (n - 87)
  else none

def hexUnit? (a b c d : UInt8) : Option Nat := do
  return (((← hexValue? a) * 16 + (← hexValue? b)) * 16 + (← hexValue? c)) * 16 + (← hexValue? d)

/-- The byte a one-letter escape stands for. -/
def unescape? (b : UInt8) : Option UInt8 :=
  if b = ascii '"' then some b
  else if b = ascii '\\' then some b
  else if b = ascii '/' then some b
  else if b = ascii 'b' then some 0x08
  else if b = ascii 'f' then some 0x0C
  else if b = ascii 'n' then some 0x0A
  else if b = ascii 'r' then some 0x0D
  else if b = ascii 't' then some 0x09
  else none

def isHighSurrogate (n : Nat) : Bool := 0xD800 ≤ n && n < 0xDC00

def isLowSurrogate (n : Nat) : Bool := 0xDC00 ≤ n && n < 0xE000

def joinSurrogates (high low : Nat) : Char :=
  Char.ofNat ((high - 0xD800) * 1024 + (low - 0xDC00) + 0x10000)

def prepend (front : Bytes) (r : Except Fault (Bytes × Bytes)) : Except Fault (Bytes × Bytes) :=
  r.map fun (b, rest) => (front ++ b, rest)

/-- The bytes of a text up to its closing quote, and what follows the quote. -/
def readBytes : Bytes → Except Fault (Bytes × Bytes)
  | [] => .error .endInText
  | b :: rest =>
    if b = ascii '"' then .ok ([], rest)
    else if b < 0x20 then .error .controlCharacter
    else if b ≠ ascii '\\' then prepend [b] (readBytes rest)
    else match rest with
      | [] => .error .endInText
      | e :: rest =>
        if e ≠ ascii 'u' then
          match unescape? e with
          | some c => prepend [c] (readBytes rest)
          | none => .error .invalidEscape
        else match rest with
          | h₁ :: h₂ :: h₃ :: h₄ :: rest =>
            match hexUnit? h₁ h₂ h₃ h₄ with
            | none => .error .invalidEscape
            | some n =>
              if isLowSurrogate n then .error .loneSurrogate
              else if !isHighSurrogate n then
                prepend (Utf8.encodeChar (Char.ofNat n)) (readBytes rest)
              else match rest with
                | [] => .error .endInText
                | x :: rest =>
                  if x ≠ ascii '\\' then .error .unpairedSurrogate
                  else match rest with
                    | [] => .error .endInText
                    | y :: rest =>
                      if y ≠ ascii 'u' then .error .unpairedSurrogate
                      else match rest with
                        | l₁ :: l₂ :: l₃ :: l₄ :: rest =>
                          match hexUnit? l₁ l₂ l₃ l₄ with
                          | none => .error .invalidEscape
                          | some m =>
                            if isLowSurrogate m then
                              prepend (Utf8.encodeChar (joinSurrogates n m)) (readBytes rest)
                            else .error .loneSurrogate
                        | _ => .error .endInText
          | _ => .error .endInText

/-- Reads a text after its opening quote. -/
def readText (b : Bytes) : Except Fault (String × Bytes) := do
  let (content, rest) ← readBytes b
  match Utf8.decode content with
  | .ok s => return (s, rest)
  | .error _ => throw .invalidCodePoint

/-- Passes over a text after its opening quote. -/
def skipText : Bytes → Except Fault Bytes
  | [] => .error .endInText
  | b :: rest =>
    if b = ascii '"' then .ok rest
    else if b < 0x20 then .error .controlCharacter
    else if b ≠ ascii '\\' then skipText rest
    else match rest with
      | [] => .error .endInText
      | e :: rest =>
        if e ≠ ascii 'u' then
          if (unescape? e).isSome then skipText rest else .error .invalidEscape
        else match rest with
          | h₁ :: h₂ :: h₃ :: h₄ :: rest =>
            if (hexUnit? h₁ h₂ h₃ h₄).isSome then skipText rest else .error .invalidEscape
          | _ => .error .endInText

end PhraseVault.Json
