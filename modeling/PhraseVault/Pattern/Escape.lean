import PhraseVault.Pattern.Cursor
import PhraseVault.Text.Digit

/-!
# Escapes

A backslash and what follows it: a character by its code, a class of characters, an assertion, or
a character that would otherwise mean something else.
-/
namespace PhraseVault.Pattern

open Reads

/-! ## Characters by their codes -/

/-- So many hexadecimal digits. -/
def hexDigits : Nat → Reads (List Char)
  | 0 => return []
  | n + 1 => do
    match ← current with
    | none => refuseHere .endInEscape
    | some c =>
      if !isHexDigit c then refuseCurrent .hexDigit
      else
        let _ ← next
        return c :: (← hexDigits n)

/-- A code of a fixed number of digits, in an escape that starts at `start`. -/
def fixedCode (start : Place) (digits : Nat) : Reads Tree := do
  let first ← place
  let ds ← hexDigits digits
  match scalar? (numberOf 16 ds) with
  | none => refuseFrom .hexValue first
  | some c => return .literal ⟨⟨start, ← place⟩, c, digits = 2⟩

/-- A code in braces. -/
def bracedCode (start : Place) : Reads Tree := do
  let brace ← place
  let first := (← currentSpan).stop
  let _ ← next
  let ds ← collectWhile isHexDigit
  match ← current with
  | none => refuseFrom .endInEscape brace
  | some c =>
    if c ≠ '}' then refuseCurrent .hexDigit
    else
      let last ← place
      let _ ← next
      if ds.isEmpty then refuseFrom .noHex brace
      else match scalar? (numberOf 16 ds) with
        | none => refuse .hexValue ⟨first, last⟩
        | some c => return .literal ⟨⟨start, ← place⟩, c, false⟩

def code (start : Place) (digits : Nat) : Reads Tree := do
  match ← next with
  | none => refuseHere .endInEscape
  | some '{' => bracedCode start
  | some _ => fixedCode start digits

/-! ## Properties -/

/-- The parts before and after the first place where a mark stands. -/
def splitAt? (mark : List Char) : List Char → Option (List Char × List Char)
  | [] => none
  | c :: cs =>
    if mark.isPrefixOf (c :: cs) then some ([], (c :: cs).drop mark.length)
    else (splitAt? mark cs).map fun (before, after) => (c :: before, after)

/-- A property, or a property and its value. -/
def propertyNamed (span : Span) (name : List Char) : Property :=
  match splitAt? ['!', '='] name <|> splitAt? [':'] name <|> splitAt? ['='] name with
  | some (property, value) => ⟨span, String.ofList property, some (String.ofList value)⟩
  | none => ⟨span, String.ofList name, none⟩

def property (start : Place) : Reads Tree := do
  match ← next with
  | none => refuseHere .endInEscape
  | some '{' =>
    let _ ← next
    let name ← collectWhile (· ≠ '}')
    if (← current).isNone then refuseHere .endInEscape
    else
      step
      return .property (propertyNamed (← spanFrom start) name)
  | some '\\' => refuseCurrent .propertySpelling
  | some c =>
    let _ ← next
    return .property ⟨← spanFrom start, c.toString, none⟩

/-! ## Assertions and single characters -/

def wordEdgeNamed? (name : String) : Option Assertion :=
  match name with
  | "start" => some .wordStart
  | "end" => some .wordEnd
  | "start-half" => some .wordStartHalf
  | "end-half" => some .wordEndHalf
  | _ => none

def isWordEdgeChar (c : Char) : Bool := isLetter c || c = '-'

/-- The kind of edge that braces after an escape name. Braces that start with something else are
left alone, for they may hold a count. -/
def wordEdge? (start : Place) : Reads (Option Assertion) := do
  let before ← get
  match ← next with
  | none => refuseFrom .endInWordEdge start
  | some c =>
    if !isWordEdgeChar c then
      set before
      return none
    else
      let first ← place
      let name ← collectWhile isWordEdgeChar
      let last ← place
      if (← current) ≠ some '}' then refuseFrom .openWordEdge before.place
      else
        step
        match wordEdgeNamed? (String.ofList name) with
        | none => refuse .unknownWordEdge ⟨first, last⟩
        | some kind => return some kind

def wordEdge (start : Place) : Reads Tree := do
  if (← current) = some '{' then
    let kind ← wordEdge? start
    return .assertion (← spanFrom start) (kind.getD .wordEdge)
  else return .assertion (← spanFrom start) .wordEdge

/-- Whether an escape stands for its second character: one in ASCII that is neither a letter nor a
digit nor an angle. -/
def isPunctuation (c : Char) : Bool :=
  c.toNat < 0x80 && !isLetter c && !isDigit c && c ≠ '<' && c ≠ '>'

def controlNamed? (c : Char) : Option Char :=
  match c with
  | 'a' => some '\x07'
  | 't' => some '\t'
  | 'n' => some '\n'
  | 'v' => some '\x0b'
  | 'f' => some '\x0c'
  | 'r' => some '\r'
  | _ => none

def assertionNamed? (c : Char) : Option Assertion :=
  match c with
  | 'A' => some .textStart
  | 'z' => some .textEnd
  | 'B' => some .notWordEdge
  | '<' => some .wordStart
  | '>' => some .wordEnd
  | _ => none

def shortClass? (c : Char) : Option (ShortClass × Bool) :=
  match c with
  | 'd' => some (.digit, false)
  | 'D' => some (.digit, true)
  | 's' => some (.space, false)
  | 'S' => some (.space, true)
  | 'w' => some (.word, false)
  | 'W' => some (.word, true)
  | _ => none

/-- An escape of a single character `c`. -/
def shortEscape (start : Place) (c : Char) : Reads Tree := do
  step
  let span ← spanFrom start
  if isPunctuation c then return .literal ⟨span, c, false⟩
  else if c = 'b' then wordEdge start
  else if let some (kind, isNegated) := shortClass? c then return .shorthand ⟨span, isNegated, kind⟩
  else if let some d := controlNamed? c then return .literal ⟨span, d, false⟩
  else if let some kind := assertionNamed? c then return .assertion span kind
  else refuse .unknownEscape span

def escape : Reads Tree := do
  let start ← place
  step
  match ← current with
  | none => refuseFrom .endInEscape start
  | some c =>
    if isDigit c then refuse .backreference ⟨start, (← currentSpan).stop⟩
    else if c = 'x' then code start 2
    else if c = 'u' then code start 4
    else if c = 'U' then code start 8
    else if c = 'p' || c = 'P' then property start
    else shortEscape start c

/-! ## Counts -/

/-- A decimal that fits into 32 bits, with white space around it. -/
def decimal : Reads (Except Fault Nat) := do
  let _ ← collectWhile Unicode.isBlank
  let first ← place
  let ds ← collectWhile isDigit
  let span ← spanFrom first
  let _ ← collectWhile Unicode.isBlank
  if ds.isEmpty then return .error ⟨.noCount, span, none⟩
  else if 0xFFFFFFFF < numberOf 10 ds then return .error ⟨.largeDecimal, span, none⟩
  else return .ok (numberOf 10 ds)

end PhraseVault.Pattern
