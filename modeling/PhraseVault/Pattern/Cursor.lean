import PhraseVault.Pattern.Tree
import PhraseVault.Unicode.Blank

/-!
# Moving through a pattern

A cursor stands before the characters that are still to be read. In a spaced pattern, white space
and comments may be passed over.
-/
namespace PhraseVault.Pattern

structure Cursor where
  place : Place
  rest : List Char
  /-- Whether white space and comments count for nothing. -/
  isSpaced : Bool

namespace Cursor

def start (pattern : String) : Cursor := ⟨.first, pattern.toList, false⟩

def step (c : Cursor) : Cursor :=
  match c.rest with
  | [] => c
  | x :: xs => { c with place := c.place.after x, rest := xs }

def steps (c : Cursor) : Nat → Cursor
  | 0 => c
  | n + 1 => c.step.steps n

/-- Past white space and comments; a comment ends with its line. -/
def passed : (inComment : Bool) → Place → List Char → Place × List Char
  | _, p, [] => (p, [])
  | inComment, p, c :: cs =>
    if inComment then passed (c ≠ '\n') (p.after c) cs
    else if Unicode.isBlank c then passed false (p.after c) cs
    else if c = '#' then passed true (p.after c) cs
    else (p, c :: cs)

def skip (c : Cursor) : Cursor :=
  if c.isSpaced then
    let (place, rest) := passed false c.place c.rest
    { c with place, rest }
  else c

/-- The character past white space, and past a mark of a comment; that of a text that holds nothing
else is its first. -/
def beyond : (inComment : Bool) → List Char → Option Char
  | _, [] => none
  | inComment, c :: cs =>
    if Unicode.isBlank c then beyond inComment cs
    else if !inComment && c = '#' then beyond true cs
    else some c

/-- What comes after the next character, for all that can be told without reading it. -/
def second? (c : Cursor) : Option Char :=
  let after := c.rest.tail
  if c.isSpaced then beyond false after <|> after.head? else after.head?

end Cursor

/-- What reading a part of a pattern gives, or what is wrong with it. -/
abbrev Reads (α : Type) := StateT Cursor (Except Fault) α

namespace Reads

def place : Reads Place := return (← get).place

/-- The character to be read next, unless the pattern ends. -/
def current : Reads (Option Char) := return (← get).rest.head?

def step : Reads Unit := modify Cursor.step

def skip : Reads Unit := modify Cursor.skip

/-- Reads a character and passes over what counts for nothing. -/
def next : Reads (Option Char) := do
  step
  skip
  current

def spanFrom (p : Place) : Reads Span := return ⟨p, ← place⟩

/-- The span of the next character, empty at the end. -/
def currentSpan : Reads Span := do
  let c ← get
  return ⟨c.place, c.step.place⟩

def refuse {α : Type} (cause : Cause) (s : Span) : Reads α := throw ⟨cause, s, none⟩

def refuseHere {α : Type} (cause : Cause) : Reads α := do refuse cause (← spanFrom (← place))

def refuseFrom {α : Type} (cause : Cause) (p : Place) : Reads α := do refuse cause (← spanFrom p)

def refuseCurrent {α : Type} (cause : Cause) : Reads α := do refuse cause (← currentSpan)

/-- Reads the given text if it comes next. -/
def takes (text : String) : Reads Bool := do
  let c ← get
  if text.toList.isPrefixOf c.rest then
    set (c.steps text.length)
    return true
  else return false

/-- Reads as many characters as pass a test; a read takes at least one off the budget. -/
def collect (test : Char → Bool) : (budget : Nat) → Reads (List Char)
  | 0 => return []
  | budget + 1 => do
    match ← current with
    | none => return []
    | some c =>
      if test c then
        let _ ← next
        return c :: (← collect test budget)
      else return []

def collectWhile (test : Char → Bool) : Reads (List Char) := do
  collect test (← get).rest.length

end Reads

end PhraseVault.Pattern
