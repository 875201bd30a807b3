import PhraseVault.Pattern.Fault

/-!
# Patterns as they are written

A tree keeps the spans of its parts, for the faults that come to light only when the pattern is
given its meaning.
-/
namespace PhraseVault.Pattern

/-- A character, however it is spelled. -/
structure Literal where
  span : Span
  char : Char
  /-- Spelled as an escape of two hexadecimal digits, which can name a byte. -/
  isByte : Bool

inductive Flag where
  | caseless
  | multiLine
  | dotAll
  | swapGreed
  | unicode
  | crlf
  | spaced
  deriving DecidableEq

/-- Flags, and whether they are set or cleared. -/
abbrev Flags := List (Flag × Bool)

inductive ShortClass where
  | digit
  | space
  | word

/-- A class that an escape of one letter names. -/
structure Shorthand where
  span : Span
  isNegated : Bool
  kind : ShortClass

/-- A class of the characters with a property, or with a value of one. -/
structure Property where
  span : Span
  name : String
  value : Option String

inductive AsciiClass where
  | alnum
  | alpha
  | ascii
  | blank
  | cntrl
  | digit
  | graph
  | lower
  | print
  | punct
  | space
  | upper
  | word
  | xdigit

def AsciiClass.named? (name : String) : Option AsciiClass :=
  match name with
  | "alnum" => some .alnum
  | "alpha" => some .alpha
  | "ascii" => some .ascii
  | "blank" => some .blank
  | "cntrl" => some .cntrl
  | "digit" => some .digit
  | "graph" => some .graph
  | "lower" => some .lower
  | "print" => some .print
  | "punct" => some .punct
  | "space" => some .space
  | "upper" => some .upper
  | "word" => some .word
  | "xdigit" => some .xdigit
  | _ => none

inductive SetOperation where
  | intersection
  | difference
  | symmetricDifference

/-- What stands in brackets. -/
inductive ClassTree where
  | literal (l : Literal)
  | range (low high : Literal)
  | ascii (span : Span) (isNegated : Bool) (kind : AsciiClass)
  | shorthand (s : Shorthand)
  | property (p : Property)
  | bracket (span : Span) (isNegated : Bool) (content : ClassTree)
  /-- Nothing, or two things and more. -/
  | union (span : Span) (items : List ClassTree)
  | operation (operation : SetOperation) (left right : ClassTree)

def ClassTree.span : ClassTree → Span
  | .literal l => l.span
  | .range a b => ⟨a.span.start, b.span.stop⟩
  | .ascii s _ _ => s
  | .shorthand s => s.span
  | .property p => p.span
  | .bracket s _ _ => s
  | .union s _ => s
  | .operation _ a b => ⟨a.span.start, b.span.stop⟩

inductive Assertion where
  | lineStart
  | lineEnd
  | textStart
  | textEnd
  | wordEdge
  | notWordEdge
  | wordStart
  | wordEnd
  | wordStartHalf
  | wordEndHalf

/-- How often something is repeated; without a largest count, any number of times. -/
structure Count where
  least : Nat
  most : Option Nat

inductive Tree where
  | empty (span : Span)
  | flags (span : Span) (flags : Flags)
  | literal (l : Literal)
  | dot (span : Span)
  | assertion (span : Span) (kind : Assertion)
  | shorthand (s : Shorthand)
  | property (p : Property)
  | bracket (span : Span) (isNegated : Bool) (content : ClassTree)
  | repetition (span : Span) (count : Count) (inner : Tree)
  | group (span : Span) (flags : Option Flags) (inner : Tree)
  | alternation (span : Span) (branches : List Tree)
  | sequence (span : Span) (parts : List Tree)

def Tree.span : Tree → Span
  | .empty s => s
  | .flags s _ => s
  | .literal l => l.span
  | .dot s => s
  | .assertion s _ => s
  | .shorthand s => s.span
  | .property p => p.span
  | .bracket s _ _ => s
  | .repetition s _ _ => s
  | .group s _ _ => s
  | .alternation s _ => s
  | .sequence s _ => s

/-! ## Depth -/

mutual

/-- The first part that stands deeper than the limit, where `depth` parts are around this one. -/
def ClassTree.tooDeep? (depth : Nat) : ClassTree → Option Span
  | .bracket s _ t => if depthLimit ≤ depth then some s else t.tooDeep? (depth + 1)
  | .union _ [] => none
  | .union s (t :: ts) =>
    if depthLimit ≤ depth then some s
    else t.tooDeep? (depth + 1) <|> ClassTree.anyTooDeep? (depth + 1) ts
  | .operation _ a b =>
    if depthLimit ≤ depth then some ⟨a.span.start, b.span.stop⟩
    else a.tooDeep? (depth + 1) <|> b.tooDeep? (depth + 1)
  | _ => none

def ClassTree.anyTooDeep? (depth : Nat) : List ClassTree → Option Span
  | [] => none
  | t :: ts => t.tooDeep? depth <|> ClassTree.anyTooDeep? depth ts

end

mutual

/-- The first part that stands deeper than the limit, where `depth` parts are around this one. -/
def Tree.tooDeep? (depth : Nat) : Tree → Option Span
  | .bracket s _ t => if depthLimit ≤ depth then some s else t.tooDeep? (depth + 1)
  | .repetition s _ t => if depthLimit ≤ depth then some s else t.tooDeep? (depth + 1)
  | .group s _ t => if depthLimit ≤ depth then some s else t.tooDeep? (depth + 1)
  | .alternation s ts => if depthLimit ≤ depth then some s else Tree.anyTooDeep? (depth + 1) ts
  | .sequence s ts => if depthLimit ≤ depth then some s else Tree.anyTooDeep? (depth + 1) ts
  | _ => none

def Tree.anyTooDeep? (depth : Nat) : List Tree → Option Span
  | [] => none
  | t :: ts => t.tooDeep? depth <|> Tree.anyTooDeep? depth ts

end

end PhraseVault.Pattern
