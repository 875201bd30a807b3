import PhraseVault.Json.Skip
import PhraseVault.Proofs.Json.Text
import Mathlib.Data.List.Forall2

/-!
# The written forms of values

What counts as a value, whoever wrote it, and all ways to write one text: a character may stand for
itself, or behind a backslash as a letter, a unit of four hex digits, or a pair of such units. Space
may stand around every token.
-/
namespace PhraseVault.Json

def IsBlank (b : Bytes) : Prop := ∀ x ∈ b, isSpace x = true

instance (b : Bytes) : Decidable (IsBlank b) :=
  decidable_of_iff (b.all isSpace = true) List.all_eq_true

theorem isBlank_nil : IsBlank [] := by
  intro x hx
  cases hx

/-- A name or a value with the space around it. -/
structure Spaced where
  before : Bytes
  body : Bytes
  after : Bytes
  blank_before : IsBlank before
  blank_after : IsBlank after

def Spaced.text (s : Spaced) : Bytes := s.before ++ (s.body ++ s.after)

def Spaced.bare (b : Bytes) : Spaced := ⟨[], b, [], isBlank_nil, isBlank_nil⟩

@[simp] theorem Spaced.text_bare (b : Bytes) : (bare b).text = b := by
  simp [bare, text]

structure Member where
  name : Spaced
  value : Spaced

def Member.text (m : Member) : Bytes := m.name.text ++ ascii ':' :: m.value.text

/-- What stands before a part of a list or an object. -/
def comma : (first : Bool) → Bytes
  | true => []
  | false => [ascii ',']

def joined : (first : Bool) → List Bytes → Bytes
  | _, [] => []
  | first, part :: parts => comma first ++ (part ++ joined false parts)

/-- The text inside of brackets or braces. -/
def inside (space : Bytes) (parts : List Bytes) : Bytes := space ++ joined true parts

def listText (space : Bytes) (items : List Spaced) : Bytes :=
  ascii '[' :: (inside space (items.map Spaced.text) ++ [ascii ']'])

def objectText (space : Bytes) (ms : List Member) : Bytes :=
  ascii '{' :: (inside space (ms.map Member.text) ++ [ascii '}'])

def IsDigits (b : Bytes) : Prop := b ≠ [] ∧ ∀ d ∈ b, isDigit d = true

/-- Digits without a zero in front of others. -/
def IsWhole (b : Bytes) : Prop := IsDigits b ∧ (b.head? = some (ascii '0') → b.length = 1)

def IsFraction (b : Bytes) : Prop := b = [] ∨ ∃ digits, IsDigits digits ∧ b = ascii '.' :: digits

def IsPower (b : Bytes) : Prop :=
  b = [] ∨ ∃ e sign digits, (e = ascii 'e' ∨ e = ascii 'E') ∧
    (sign = [] ∨ sign = [ascii '+'] ∨ sign = [ascii '-']) ∧ IsDigits digits ∧
    b = e :: (sign ++ digits)

def IsNumber (b : Bytes) : Prop :=
  ∃ sign whole fraction power, (sign = [] ∨ sign = [ascii '-']) ∧ IsWhole whole ∧
    IsFraction fraction ∧ IsPower power ∧ b = sign ++ (whole ++ (fraction ++ power))

/-- A hex digit in either case. -/
def HexDigit (n : Nat) (b : UInt8) : Prop :=
  b = ascii n.digitChar ∨ b = ascii n.digitChar.toUpper

/-- Four hex digits that spell a number of 16 bits. -/
def HexUnit (n : Nat) (digits : Bytes) : Prop :=
  n < 0x10000 ∧ List.Forall₂ HexDigit [n / 4096, n / 256 % 16, n / 16 % 16, n % 16] digits

/-- The letters that may follow a backslash, each with the character it stands for. -/
def escapes : List (Char × Char) :=
  [('"', '"'), ('\\', '\\'), ('/', '/'), ('b', '\x08'), ('f', '\x0C'), ('n', '\n'), ('r', '\r'),
    ('t', '\t')]

/-- What may stand between quotes. The units need not spell characters. -/
inductive Chunk : Bytes → Prop
  | plain {b : UInt8} (h : IsPlain b) : Chunk [b]
  | letter {e c : Char} (h : (e, c) ∈ escapes) : Chunk [ascii '\\', ascii e]
  | unit {n : Nat} {digits : Bytes} (h : HexUnit n digits) :
    Chunk (ascii '\\' :: ascii 'u' :: digits)

def quoted (parts : List Bytes) : Bytes := ascii '"' :: (parts.flatten ++ [ascii '"'])

def IsText (b : Bytes) : Prop := ∃ chunks, (∀ c ∈ chunks, Chunk c) ∧ b = quoted chunks

def words : List Bytes :=
  [['n', 'u', 'l', 'l'], ['t', 'r', 'u', 'e'], ['f', 'a', 'l', 's', 'e']].map (·.map ascii)

inductive IsValue : Bytes → Prop
  | word {b : Bytes} (h : b ∈ words) : IsValue b
  | number {b : Bytes} (h : IsNumber b) : IsValue b
  | text {b : Bytes} (h : IsText b) : IsValue b
  | list {space : Bytes} {items : List Spaced} (hs : IsBlank space)
    (hv : ∀ i ∈ items, IsValue i.body) : IsValue (listText space items)
  | object {space : Bytes} {ms : List Member} (hs : IsBlank space)
    (hn : ∀ m ∈ ms, IsText m.name.body) (hv : ∀ m ∈ ms, IsValue m.value.body) :
    IsValue (objectText space ms)

/-- The ways to write a character between quotes. -/
inductive Spelling : Char → Bytes → Prop
  | plain {c : Char} (hq : c ≠ '"') (hb : c ≠ '\\') (hc : ¬ c.toNat < 0x20) :
    Spelling c (Utf8.encodeChar c)
  | letter {e c : Char} (h : (e, c) ∈ escapes) : Spelling c [ascii '\\', ascii e]
  | unit {c : Char} {digits : Bytes} (h : HexUnit c.toNat digits) :
    Spelling c (ascii '\\' :: ascii 'u' :: digits)
  | pair {c : Char} {high low : Bytes} (hc : 0x10000 ≤ c.toNat)
    (hh : HexUnit (0xD800 + (c.toNat - 0x10000) / 1024) high)
    (hl : HexUnit (0xDC00 + (c.toNat - 0x10000) % 1024) low) :
    Spelling c (ascii '\\' :: ascii 'u' :: (high ++ ascii '\\' :: ascii 'u' :: low))

def SpellsText (s : String) (b : Bytes) : Prop :=
  ∃ parts, List.Forall₂ Spelling s.toList parts ∧ b = quoted parts

theorem skipSpace_append {space : Bytes} (h : IsBlank space) (rest : Bytes) :
    skipSpace (space ++ rest) = skipSpace rest :=
  List.dropWhile_append_of_pos h

end PhraseVault.Json
