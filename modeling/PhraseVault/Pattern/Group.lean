import PhraseVault.Pattern.Cursor
import PhraseVault.Unicode.Letter

/-!
# How groups start

A group may have a name or flags of its own. Flags in parentheses without a group hold for the rest
of the group around them.
-/
namespace PhraseVault.Pattern

open Reads

structure GroupName where
  text : String
  span : Span

inductive GroupHead where
  /-- Flags that stand alone. -/
  | flags (span : Span) (flags : Flags)
  | group (flags : Flags)
  | capture (name : Option GroupName)

def flagNamed? (c : Char) : Option Flag :=
  match c with
  | 'i' => some .caseless
  | 'm' => some .multiLine
  | 's' => some .dotAll
  | 'U' => some .swapGreed
  | 'u' => some .unicode
  | 'R' => some .crlf
  | 'x' => some .spaced
  | _ => none

/-- Flags as far as they are read; none stands for the sign that negates those after it. -/
abbrev FlagItems := List (Option Flag × Span)

/-- Reads a flag or the negation, unless it was read before. -/
def flagItem (c : Char) (seen : FlagItems) : Reads (Option Flag × Span) := do
  let span ← currentSpan
  let flag ←
    if c = '-' then pure none
    else match flagNamed? c with
      | some f => pure (some f)
      | none => refuse .unknownFlag span
  match seen.find? fun (f, _) => f = flag with
  | some (_, earlier) =>
    throw ⟨if flag.isNone then .repeatedNegation else .repeatedFlag, span, some earlier⟩
  | none => return (flag, span)

/-- Reads flags up to a colon or a closing parenthesis. -/
def flagItems : (budget : Nat) → FlagItems → Reads FlagItems
  | 0, seen => return seen
  | budget + 1, seen => do
    match ← current with
    | none => refuseHere .endInFlags
    | some c =>
      if c = ':' || c = ')' then
        match seen.getLast? with
        | some (none, span) => refuse .danglingNegation span
        | _ => return seen
      else
        let found ← flagItem c seen
        step
        flagItems budget (seen ++ [found])

/-- The flags before a negation are set, those after it cleared. -/
def flagsOf : (isSet : Bool) → FlagItems → Flags
  | _, [] => []
  | _, (none, _) :: rest => flagsOf false rest
  | isSet, (some f, _) :: rest => (f, isSet) :: flagsOf isSet rest

def isNameChar (isFirst : Bool) (c : Char) : Bool :=
  c = '_' || Unicode.isAlphabetic c ||
    (!isFirst && (c = '.' || c = '[' || c = ']' || Unicode.isNumeric c))

/-- The characters of a name, of which none may stand elsewhere than before an angle. -/
def nameChars : (budget : Nat) → (isFirst : Bool) → Reads (List Char)
  | 0, _ => return []
  | budget + 1, isFirst => do
    match ← current with
    | none => refuseHere .endInName
    | some c =>
      if c = '>' then return []
      else if !isNameChar isFirst c then refuseCurrent .nameCharacter
      else
        step
        return c :: (← nameChars budget false)

def groupName : Reads GroupName := do
  let start ← place
  let name ← nameChars ((← get).rest.length + 1) true
  let span ← spanFrom start
  step
  if name.isEmpty then refuse .noName ⟨start, start⟩
  else return ⟨String.ofList name, span⟩

/-- Reads what follows the question mark of a group that starts at `span`; `inside` is where the
question mark stands. -/
def flaggedHead (span : Span) (inside : Place) : Reads GroupHead := do
  if (← current).isNone then refuse .openGroup span
  else
    let items ← flagItems ((← get).rest.length + 1) []
    let isAlone := (← current) == some ')'
    step
    if !isAlone then return .group (flagsOf true items)
    else if items.isEmpty then refuse .noOperand ⟨inside, inside⟩
    else return .flags (← spanFrom span.start) (flagsOf true items)

/-- Whether what comes next looks at the text before or after a place. -/
def takesLookAround : Reads Bool := do
  if ← takes "?=" then return true
  else if ← takes "?!" then return true
  else if ← takes "?<=" then return true
  else takes "?<!"

def groupHead : Reads GroupHead := do
  let span ← currentSpan
  step
  skip
  let inside ← place
  if ← takesLookAround then refuseFrom .lookAround span.start
  else if ← takes "?P<" then return .capture (← groupName)
  else if ← takes "?<" then return .capture (← groupName)
  else if ← takes "?" then flaggedHead span inside
  else return .capture none

end PhraseVault.Pattern
