import PhraseVault.Bytes

/-!
# UTF-8

Text is written one character at a time. Reading cuts a byte string into pieces: a character, or a
longest run of bytes that begin a character without finishing it. The strict reader stops at the
first broken piece, the lenient one puts the replacement character in its place.
-/
namespace PhraseVault.Utf8

/-- The one to four bytes of a character. -/
def encodeChar (c : Char) : Bytes :=
  let n := c.toNat
  if n < 0x80 then [UInt8.ofNat n]
  else if n < 0x800 then [UInt8.ofNat (0xC0 + n / 64), UInt8.ofNat (0x80 + n % 64)]
  else if n < 0x10000 then
    [UInt8.ofNat (0xE0 + n / 4096), UInt8.ofNat (0x80 + n / 64 % 64), UInt8.ofNat (0x80 + n % 64)]
  else
    [UInt8.ofNat (0xF0 + n / 262144), UInt8.ofNat (0x80 + n / 4096 % 64),
      UInt8.ofNat (0x80 + n / 64 % 64), UInt8.ofNat (0x80 + n % 64)]

def encode (s : String) : Bytes := s.toList.flatMap encodeChar

inductive Piece where
  | char (c : Char)
  /-- So many bytes that the next byte keeps from being a character. -/
  | broken (count : Nat)
  /-- The input ends inside a character. -/
  | cut
  deriving DecidableEq

/-- What has been read since the last whole character. -/
inductive State where
  | start
  /-- `seen` bytes that spell `value`; `missing` more are due, the next one in `[low, high)`. -/
  | inside (seen missing value low high : Nat)
  deriving DecidableEq

/-- Reads a first byte. The second byte's bounds leave out overlong forms, surrogates and all past
U+10FFFF. -/
def begin (b : Nat) : List Piece × State :=
  if b < 0x80 then ([.char (Char.ofNat b)], .start)
  else if b < 0xC2 then ([.broken 1], .start)
  else if b < 0xE0 then ([], .inside 1 1 (b - 0xC0) 0x80 0xC0)
  else if b < 0xF0 then
    ([], .inside 1 2 (b - 0xE0) (if b = 0xE0 then 0xA0 else 0x80) (if b = 0xED then 0xA0 else 0xC0))
  else if b < 0xF5 then
    ([], .inside 1 3 (b - 0xF0) (if b = 0xF0 then 0x90 else 0x80) (if b = 0xF4 then 0x90 else 0xC0))
  else ([.broken 1], .start)

def next : State → Nat → List Piece × State
  | .start, b => begin b
  | .inside seen missing value low high, b =>
    if low ≤ b ∧ b < high then
      let value := value * 64 + (b - 0x80)
      if missing = 1 then ([.char (Char.ofNat value)], .start)
      else ([], .inside (seen + 1) (missing - 1) value 0x80 0xC0)
    else (.broken seen :: (begin b).1, (begin b).2)

def piecesFrom : State → Bytes → List Piece
  | .start, [] => []
  | .inside .., [] => [.cut]
  | s, b :: rest => (next s b.toNat).1 ++ piecesFrom (next s b.toNat).2 rest

def pieces (b : Bytes) : List Piece := piecesFrom .start b

/-- Where a byte string stops being text: after `index` bytes, at `count` bytes that begin no
character, or at its end when `count` is missing. -/
structure Fault where
  index : Nat
  count : Option Nat
  deriving DecidableEq

def Fault.message (f : Fault) : String :=
  match f.count with
  | some n => s!"invalid utf-8 sequence of {n} bytes from index {f.index}"
  | none => s!"incomplete utf-8 byte sequence from index {f.index}"

def join (index : Nat) : List Piece → Except Fault (List Char)
  | [] => .ok []
  | .char c :: rest => (c :: ·) <$> join (index + (encodeChar c).length) rest
  | .broken n :: _ => .error ⟨index, some n⟩
  | .cut :: _ => .error ⟨index, none⟩

def decodeChars (b : Bytes) : Except Fault (List Char) := join 0 (pieces b)

/-- The text a byte string spells, or where it stops being text. -/
def decode (b : Bytes) : Except Fault String := String.ofList <$> decodeChars b

def replacement : Char := '\uFFFD'

def Piece.lenient : Piece → Char
  | .char c => c
  | _ => replacement

/-- The text of a byte string, with a replacement character for each broken piece. -/
def decodeLossy (b : Bytes) : String := String.ofList ((pieces b).map Piece.lenient)

end PhraseVault.Utf8
