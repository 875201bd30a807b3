/-!
# What can be wrong with a written pattern

A fault names the part of the pattern it is in. Its report shows the pattern with that part
underlined.
-/
namespace PhraseVault.Pattern

/-- A place before or after a character. Lines and columns count from one. -/
structure Place where
  offset : Nat
  line : Nat
  column : Nat
  deriving DecidableEq

namespace Place

def first : Place := ⟨0, 1, 1⟩

/-- The place after a character that stands here. -/
def after (p : Place) (c : Char) : Place :=
  if c = '\n' then ⟨p.offset + 1, p.line + 1, 1⟩ else ⟨p.offset + 1, p.line, p.column + 1⟩

end Place

structure Span where
  start : Place
  stop : Place
  deriving DecidableEq

namespace Span

def isInLine (s : Span) : Bool := s.start.line = s.stop.line

def precedes (s t : Span) : Bool :=
  s.start.offset < t.start.offset ||
    (s.start.offset = t.start.offset && s.stop.offset ≤ t.stop.offset)

/-- An empty span is underlined as if it held a character. -/
def width (s : Span) : Nat := max 1 (s.stop.column - s.start.column)

end Span

/-- How deep groups, brackets, repetitions, alternatives and sequences may stand in each other. -/
def depthLimit : Nat := 250

inductive Cause where
  | escapeInBracket
  | reversedRange
  | rangeEnd
  | openBracket
  | largeDecimal
  | noHex
  | hexValue
  | hexDigit
  | endInEscape
  | unknownEscape
  | danglingNegation
  | repeatedFlag
  | repeatedNegation
  | endInFlags
  | unknownFlag
  | repeatedName
  | noName
  | nameCharacter
  | endInName
  | openGroup
  | unopenedGroup
  | tooDeep
  | reversedCount
  | noCount
  | openCount
  | noOperand
  | openWordEdge
  | unknownWordEdge
  | endInWordEdge
  | propertySpelling
  | backreference
  | lookAround
  | unicodeRefused
  | brokenText
  | unknownProperty
  | unknownPropertyValue
  | unknownUnicodeClass
  | unicodeCaseless
  deriving DecidableEq

def Cause.message : Cause → String
  | .escapeInBracket => "invalid escape sequence found in character class"
  | .reversedRange => "invalid character class range, the start must be <= the end"
  | .rangeEnd => "invalid range boundary, must be a literal"
  | .openBracket => "unclosed character class"
  | .largeDecimal => "decimal literal invalid"
  | .noHex => "hexadecimal literal empty"
  | .hexValue => "hexadecimal literal is not a Unicode scalar value"
  | .hexDigit => "invalid hexadecimal digit"
  | .endInEscape => "incomplete escape sequence, reached end of pattern prematurely"
  | .unknownEscape => "unrecognized escape sequence"
  | .danglingNegation => "dangling flag negation operator"
  | .repeatedFlag => "duplicate flag"
  | .repeatedNegation => "flag negation operator repeated"
  | .endInFlags => "expected flag but got end of regex"
  | .unknownFlag => "unrecognized flag"
  | .repeatedName => "duplicate capture group name"
  | .noName => "empty capture group name"
  | .nameCharacter => "invalid capture group character"
  | .endInName => "unclosed capture group name"
  | .openGroup => "unclosed group"
  | .unopenedGroup => "unopened group"
  | .tooDeep => s!"exceeded the maximum number of nested parentheses/brackets ({depthLimit})"
  | .reversedCount => "invalid repetition count range, the start must be <= the end"
  | .noCount => "repetition quantifier expects a valid decimal"
  | .openCount => "unclosed counted repetition"
  | .noOperand => "repetition operator missing expression"
  | .openWordEdge =>
    "special word boundary assertion is either unclosed or contains an invalid character"
  | .unknownWordEdge =>
    "unrecognized special word boundary assertion, valid choices are: " ++
      "start, end, start-half or end-half"
  | .endInWordEdge =>
    "found either the beginning of a special word boundary or a bounded repetition on a \\b " ++
      "with an opening brace, but no closing brace"
  | .propertySpelling => "invalid Unicode character class"
  | .backreference => "backreferences are not supported"
  | .lookAround => "look-around, including look-ahead and look-behind, is not supported"
  | .unicodeRefused => "Unicode not allowed here"
  | .brokenText => "pattern can match invalid UTF-8"
  | .unknownProperty => "Unicode property not found"
  | .unknownPropertyValue => "Unicode property value not found"
  | .unknownUnicodeClass =>
    "Unicode-aware Perl class not found (make sure the unicode-perl feature is enabled)"
  | .unicodeCaseless =>
    "Unicode-aware case insensitivity matching is not available " ++
      "(make sure the unicode-case feature is enabled)"

structure Fault where
  cause : Cause
  span : Span
  /-- The first of two things of which there may be only one. -/
  earlier : Option Span
  deriving DecidableEq

namespace Fault

def spans (f : Fault) : List Span :=
  match f.earlier with
  | none => [f.span]
  | some s => if s.precedes f.span then [s, f.span] else [f.span, s]

/-- Spans of one line, in order, underlined. -/
def underline (spans : List Span) : String :=
  spans.foldl (fun s t => (s.pushn ' ' (t.start.column - 1 - s.length)).pushn '^' t.width) ""

/-- The pieces of a text between line feeds. The last is a line only if it is not empty, and a
carriage return belongs to the line feed after it. -/
def linesOf (pieces : List String) : List String :=
  match pieces with
  | [] => []
  | [last] => if last = "" then [] else [last]
  | s :: rest =>
    let cs := s.toList
    (if cs.getLast? = some '\r' then String.ofList cs.dropLast else s) :: linesOf rest

/-- The width of the largest line number, if there is more than one line. -/
def numberWidth (count : Nat) : Nat := if count ≤ 1 then 0 else (toString count).length

def label (width number : Nat) : String :=
  if width = 0 then "    "
  else "".pushn ' ' (width - (toString number).length) ++ s!"{number}: "

/-- A line of the pattern, with the spans that lie in it underlined. -/
def row (f : Fault) (width : Nat) (line : String × Nat) : String :=
  let spans := f.spans.filter fun s => s.isInLine && s.start.line = line.2
  let shown := label width line.2 ++ line.1 ++ "\n"
  if spans.isEmpty then shown
  else shown ++ "".pushn ' ' (label width line.2).length ++ underline spans ++ "\n"

def crossing (s : Span) : String :=
  s!"on line {s.start.line} (column {s.start.column}) " ++
    s!"through line {s.stop.line} (column {s.stop.column - 1})"

def report (f : Fault) (pattern : String) : String :=
  let pieces := pattern.splitOn "\n"
  let rows := ((linesOf pieces).zipIdx 1).map (f.row (numberWidth pieces.length))
  let shown := String.join rows
  let verdict := s!"error: {f.cause.message}"
  if pieces.length ≤ 1 then "regex parse error:\n" ++ shown ++ verdict
  else
    let divider := "".pushn '~' 79 ++ "\n"
    let crossings := (f.spans.filter (!·.isInLine)).map fun s => crossing s ++ "\n"
    "regex parse error:\n" ++ divider ++ shown ++ divider ++ String.join crossings ++ verdict

end Fault

end PhraseVault.Pattern
