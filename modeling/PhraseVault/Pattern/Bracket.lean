import PhraseVault.Pattern.Escape

/-!
# Classes in brackets

Brackets hold characters, ranges and further classes, and operations that join what stands before
them to what stands after. Operations group to the left.
-/
namespace PhraseVault.Pattern

open Reads

/-- A bracket that is being read. -/
structure OpenBracket where
  /-- From the bracket to what it starts with, shown if it is never closed. -/
  opening : Span
  isNegated : Bool
  /-- What stands before an operation. -/
  left : Option (SetOperation × ClassTree)
  /-- Where the items start. -/
  start : Place
  /-- The latest item comes first. -/
  items : List ClassTree

namespace OpenBracket

def add (b : OpenBracket) (t : ClassTree) : OpenBracket := { b with items := t :: b.items }

def union (b : OpenBracket) : ClassTree :=
  match b.items, b.items.reverse with
  | [t], _ => t
  | last :: _, first :: rest => .union ⟨first.span.start, last.span.stop⟩ (first :: rest)
  | _, _ => .union ⟨b.start, b.start⟩ []

def content (b : OpenBracket) : ClassTree :=
  match b.left with
  | none => b.union
  | some (operation, t) => .operation operation t b.union

def join (b : OpenBracket) (operation : SetOperation) (start : Place) : OpenBracket :=
  { b with left := some (operation, b.content), start, items := [] }

end OpenBracket

/-- Reads on, where the pattern must not end. -/
def nextIn (start : Place) : Reads Char := do
  match ← next with
  | none => refuseFrom .openBracket start
  | some c => return c

/-- Hyphens that a bracket starts with. -/
def hyphens (start : Place) : (budget : Nat) → OpenBracket → Reads OpenBracket
  | 0, b => return b
  | budget + 1, b => do
    let span ← currentSpan
    if (← current) ≠ some '-' then return b
    else match ← next with
      | none => refuse .openBracket ⟨start, start⟩
      | some _ => hyphens start budget (b.add (.literal ⟨span, '-', false⟩))

/-- Reads a bracket, the caret that negates it, and the hyphens or the closing bracket that are
characters where they stand first. -/
def openBracket : Reads OpenBracket := do
  let start ← place
  let isNegated := (← nextIn start) == '^'
  if isNegated then
    let _ ← nextIn start
  let first ← place
  let b ← hyphens start (← get).rest.length ⟨⟨start, first⟩, isNegated, none, first, []⟩
  let span ← currentSpan
  if b.items.isEmpty && (← current) = some ']' then
    let _ ← nextIn start
    return { b with opening := ← spanFrom start, items := [.literal ⟨span, ']', false⟩] }
  else return { b with opening := ← spanFrom start }

/-- A class by its name between colons, in brackets of its own. Anything else that starts so is
left alone. -/
def asciiClass? : Reads (Option ClassTree) := do
  let start ← place
  let before ← get
  let isNegated := (before.steps 2).rest.head? == some '^'
  let named := before.steps (if isNegated then 3 else 2)
  let name := named.rest.takeWhile (· ≠ ':')
  match AsciiClass.named? (String.ofList name) with
  | none => return none
  | some kind =>
    if (← takes "[:") then
      set (named.steps name.length)
      if ← takes ":]" then return some (.ascii (← spanFrom start) isNegated kind)
      else
        set before
        return none
    else return none

/-- An item that stands alone. -/
def itemOf (t : Tree) : Reads ClassTree :=
  match t with
  | .literal l => return .literal l
  | .shorthand s => return .shorthand s
  | .property p => return .property p
  | _ => refuse .escapeInBracket t.span

/-- An end of a range. -/
def rangeEndOf (t : Tree) : Reads Literal :=
  match t with
  | .literal l => return l
  | _ => refuse .rangeEnd t.span

def character : Reads Tree := do
  let span ← currentSpan
  match ← current with
  | none => refuse .openBracket span
  | some '\\' => escape
  | some c =>
    step
    return .literal ⟨span, c, false⟩

/-- A character, an escape or a range. A hyphen before the end or before another hyphen makes no
range. -/
def item (b : OpenBracket) : Reads ClassTree := do
  let first ← character
  skip
  match ← current with
  | none => refuse .openBracket b.opening
  | some c =>
    let second := (← get).second?
    if c ≠ '-' || second = some ']' || second = some '-' then itemOf first
    else if (← next).isNone then refuse .openBracket b.opening
    else
      let last ← character
      let low ← rangeEndOf first
      let high ← rangeEndOf last
      if high.char < low.char then refuse .reversedRange ⟨low.span.start, high.span.stop⟩
      else return .range low high

def operation? : Reads (Option SetOperation) := do
  if ← takes "&&" then return some .intersection
  else if ← takes "--" then return some .difference
  else if ← takes "~~" then return some .symmetricDifference
  else return none

/-- Reads the rest of a bracket, with the brackets around it, the innermost first. Every round takes
a character off the budget. -/
def closeBracket : (budget : Nat) → OpenBracket → List OpenBracket → Reads Tree
  | 0, b, _ => refuse .openBracket b.opening
  | budget + 1, b, outer => do
    skip
    match ← current with
    | none => refuse .openBracket b.opening
    | some ']' =>
      step
      let span ← spanFrom b.opening.start
      match outer with
      | [] => return .bracket span b.isNegated b.content
      | a :: outer => closeBracket budget (a.add (.bracket span b.isNegated b.content)) outer
    | some '[' =>
      match ← asciiClass? with
      | some t => closeBracket budget (b.add t) outer
      | none => closeBracket budget (← openBracket) (b :: outer)
    | some _ =>
      match ← operation? with
      | some operation => closeBracket budget (b.join operation (← place)) outer
      | none => closeBracket budget (b.add (← item b)) outer

def bracket : Reads Tree := do
  let budget := (← get).rest.length
  closeBracket budget (← openBracket) []

end PhraseVault.Pattern
