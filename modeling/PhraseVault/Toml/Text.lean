import PhraseVault.Text.Digit
import PhraseVault.Text.Quoted

/-!
# Text values

A text stands between single or triple quotes of either kind. Between double quotes a backslash
escapes; between apostrophes everything is meant as it stands. The writer picks the form that needs
the least escaping.
-/
namespace PhraseVault.Toml

/-- A reader takes a value off the front of a text, if one is there. -/
abbrev Reader (α : Type) := List Char → Option (α × List Char)

def isSpace (c : Char) : Bool := c = ' ' || c = '\t'

/-- Characters that may stand in a comment or a quoted text as they are. -/
def isPrintable (c : Char) : Bool := c = '\t' || (0x20 ≤ c.toNat && c.toNat ≠ 0x7F)

def hexNumber? (cs : List Char) : Option Nat :=
  if cs.all isHexDigit then some (numberOf 16 cs) else none

def codePoint? (digits : Nat) (cs : List Char) : Option (Char × List Char) :=
  if cs.length < digits then none
  else do return (← scalar? (← hexNumber? (cs.take digits)), cs.drop digits)

/-- Reads what follows a backslash, but for the end of a line. -/
def escape : Reader Char
  | 'b' :: rest => some ('\x08', rest)
  | 't' :: rest => some ('\t', rest)
  | 'n' :: rest => some ('\n', rest)
  | 'f' :: rest => some ('\x0C', rest)
  | 'r' :: rest => some ('\r', rest)
  | '"' :: rest => some ('"', rest)
  | '\\' :: rest => some ('\\', rest)
  | 'u' :: rest => codePoint? 4 rest
  | 'U' :: rest => codePoint? 8 rest
  | _ => none

/-- A line ends in a line feed, or in a carriage return and a line feed. -/
def newline? : List Char → Option (List Char)
  | '\n' :: rest => some rest
  | '\r' :: '\n' :: rest => some rest
  | _ => none

/-- The blanks and line ends that a backslash at the end of a line swallows. -/
def dropBlankLines : List Char → List Char
  | '\r' :: '\n' :: rest => dropBlankLines rest
  | c :: rest => if isSpace c || c = '\n' then dropBlankLines rest else c :: rest
  | [] => []

/-- What follows a backslash that ends its line. -/
def lineContinuation? (cs : List Char) : Option (List Char) :=
  (newline? (cs.dropWhile isSpace)).map dropBlankLines

def extend (c : Char) (r : Option (List Char × List Char)) : Option (List Char × List Char) :=
  r.map fun (cs, rest) => (c :: cs, rest)

/-- The rest of a text on one line between the given quotes; `budget` bounds its length. -/
def lineChars (quote : Char) (escapes : Bool) : (budget : Nat) → List Char →
    Option (List Char × List Char)
  | 0, _ => none
  | _ + 1, [] => none
  | budget + 1, c :: rest =>
    if c = quote then some ([], rest)
    else if escapes && c = '\\' then
      match escape rest with
      | some (e, rest) => extend e (lineChars quote escapes budget rest)
      | none => none
    else if isPrintable c then extend c (lineChars quote escapes budget rest)
    else none

/-- Up to two quotes may stand before the closing three. -/
def closing? (quote : Char) (cs : List Char) : Option (List Char × List Char) :=
  let run := (cs.takeWhile (· == quote)).length
  if 3 ≤ run then
    let kept := min (run - 3) 2
    some (List.replicate kept quote, cs.drop (kept + 3))
  else none

/-- The rest of a text on many lines between triples of the given quotes. -/
def blockChars (quote : Char) (escapes : Bool) : (budget : Nat) → List Char →
    Option (List Char × List Char)
  | 0, _ => none
  | _ + 1, [] => none
  | budget + 1, c :: rest =>
    if c = quote then
      match closing? quote (c :: rest) with
      | some r => some r
      | none => extend c (blockChars quote escapes budget rest)
    else if escapes && c = '\\' then
      match lineContinuation? rest with
      | some rest => blockChars quote escapes budget rest
      | none =>
        match escape rest with
        | some (e, rest) => extend e (blockChars quote escapes budget rest)
        | none => none
    else match newline? (c :: rest) with
      | some rest => extend '\n' (blockChars quote escapes budget rest)
      | none => if isPrintable c then extend c (blockChars quote escapes budget rest) else none

/-- Backslashes escape between double quotes only. -/
def hasEscapes (quote : Char) : Bool := quote = '"'

def line (quote : Char) : Reader String := fun cs =>
  (lineChars quote (hasEscapes quote) (cs.length + 1) cs).map fun (t, rest) =>
    (String.ofList t, rest)

/-- A line end right after the opening quotes is dropped. -/
def block (quote : Char) : Reader String := fun cs =>
  let cs := (newline? cs).getD cs
  (blockChars quote (hasEscapes quote) (cs.length + 1) cs).map fun (t, rest) =>
    (String.ofList t, rest)

/-- A quoted text after its first quote. -/
def quoted (quote : Char) : Reader String
  | a :: b :: rest =>
    if a = quote ∧ b = quote then block quote rest else line quote (a :: b :: rest)
  | cs => line quote cs

/-- Characters that have to be escaped in every form. -/
def isControl (c : Char) : Bool :=
  (c.toNat ≤ 0x1F && c ≠ '\t' && c ≠ '\n') || c.toNat = 0x7F

/-- The length of the longest run of a character. -/
def longestRun (x : Char) (cs : List Char) : Nat :=
  (cs.foldl (fun (best, run) c => if c = x then (max best (run + 1), run + 1) else (best, 0))
    ((0, 0) : Nat × Nat)).1

inductive Form where
  /-- One quote on either side, and whether backslashes escape. -/
  | line (escapes : Bool)
  /-- Three quotes on either side, and whether backslashes escape. -/
  | block (escapes : Bool)
  deriving DecidableEq

/-- The form a text is written in. -/
def Form.of (cs : List Char) : Form :=
  let control := cs.any isControl
  let backslash := cs.contains '\\'
  let lines := cs.contains '\n'
  let quotes := longestRun '"' cs
  let apostrophes := longestRun '\'' cs
  if !control && !backslash && quotes == 0 && !lines then .line true
  else if !control && apostrophes == 0 && !lines then .line false
  else if !control && !backslash && quotes ≤ 2 then .block true
  else if !control && apostrophes ≤ 2 then .block false
  else if lines then .block true
  else .line true

def upperHex (n : Nat) : Char := if n < 10 then Char.ofNat (48 + n) else Char.ofNat (55 + n)

/-- An escaped character other than a quote or a line end. -/
def escapeChar (c : Char) : List Char :=
  match c with
  | '\x08' => ['\\', 'b']
  | '\t' => ['\\', 't']
  | '\x0C' => ['\\', 'f']
  | '\r' => ['\\', 'r']
  | '\\' => ['\\', '\\']
  | _ =>
    if isControl c then
      ['\\', 'u', '0', '0', upperHex (c.toNat / 16 % 16), upperHex (c.toNat % 16)]
    else [c]

def writeLine (c : Char) : List Char :=
  match c with
  | '"' => ['\\', '"']
  | '\n' => ['\\', 'n']
  | _ => escapeChar c

/-- Escapes the third of three quotes in a row; `run` counts the quotes just written. -/
def writeBlock (run : Nat) : List Char → List Char
  | [] => []
  | c :: cs =>
    if c = '"' then
      if run = 2 then '\\' :: '"' :: writeBlock 0 cs else '"' :: writeBlock (run + 1) cs
    else if c = '\n' then '\n' :: writeBlock 0 cs
    else escapeChar c ++ writeBlock 0 cs

/-- A text with line ends starts on a line of its own. -/
def opening (cs : List Char) : List Char := if cs.contains '\n' then ['\n'] else []

def writeText (s : String) : List Char :=
  let cs := s.toList
  match Form.of cs with
  | .line true => '"' :: cs.flatMap writeLine ++ ['"']
  | .line false => '\'' :: cs ++ ['\'']
  | .block true => ['"', '"', '"'] ++ opening cs ++ writeBlock 0 cs ++ ['"', '"', '"']
  | .block false => ['\'', '\'', '\''] ++ opening cs ++ cs ++ ['\'', '\'', '\'']

end PhraseVault.Toml
