import PhraseVault.Pattern.Bracket
import PhraseVault.Pattern.Group

/-!
# Reading patterns

A pattern is read in one pass. The groups that are open are kept beside the group that is being
read, so that the depth of a pattern is limited only once all of it is known.
-/
namespace PhraseVault.Pattern

open Reads

/-- A sequence of parts, or its only part. -/
def Tree.ofParts (span : Span) : List Tree → Tree
  | [] => .empty span
  | [t] => t
  | ts => .sequence span ts

/-- The inside of a group, or of the pattern, as far as it is read. -/
structure Body where
  start : Place
  /-- The alternatives that are finished, the latest first. -/
  branches : List Tree
  branchStart : Place
  /-- The latest part comes first. -/
  parts : List Tree

namespace Body

def begin (p : Place) : Body := ⟨p, [], p, []⟩

def add (b : Body) (t : Tree) : Body := { b with parts := t :: b.parts }

def branch (b : Body) (stop : Place) : Tree := .ofParts ⟨b.branchStart, stop⟩ b.parts.reverse

def alternate (b : Body) (stop next : Place) : Body :=
  { b with branches := b.branch stop :: b.branches, branchStart := next, parts := [] }

def finish (b : Body) (stop : Place) : Tree :=
  match b.branches with
  | [] => b.branch stop
  | ts => .alternation ⟨b.start, stop⟩ (b.branch stop :: ts).reverse

/-- What a repetition is of, and the parts before it. Flags cannot be repeated. -/
def operand? (b : Body) : Option (Tree × Body) :=
  match b.parts with
  | [] => none
  | .flags _ _ :: _ => none
  | t :: ts => some (t, { b with parts := ts })

end Body

/-- A group that is not closed yet, and what is around it. -/
structure OpenGroup where
  around : Body
  span : Span
  /-- The flags of a group that does not capture. -/
  flags : Option Flags
  /-- Whether the pattern around the group is spaced. -/
  wasSpaced : Bool

/-- A pattern as far as it is read. -/
structure Draft where
  body : Body
  /-- The innermost comes first. -/
  groups : List OpenGroup
  names : List GroupName

namespace Draft

def add (d : Draft) (t : Tree) : Draft := { d with body := d.body.add t }

end Draft

/-! ## Groups -/

def setSpaced (flags : Flags) : Reads Unit :=
  match flags.lookup .spaced with
  | none => return ()
  | some isSpaced => modify fun c => { c with isSpaced }

/-- Notes the name of a group, which no other group may have. -/
def addName (d : Draft) : Option GroupName → Reads Draft
  | none => return d
  | some name =>
    match d.names.find? fun n => n.text = name.text with
    | some n => throw ⟨.repeatedName, name.span, some n.span⟩
    | none => return { d with names := name :: d.names }

/-- Enters a group that starts at `span`. -/
def enter (d : Draft) (span : Span) (flags : Option Flags) : Reads Draft := do
  let c ← get
  setSpaced (flags.getD [])
  return { d with body := .begin c.place, groups := ⟨d.body, span, flags, c.isSpaced⟩ :: d.groups }

def openGroup (d : Draft) : Reads Draft := do
  let span ← currentSpan
  match ← groupHead with
  | .flags s flags =>
    setSpaced flags
    return d.add (.flags s flags)
  | .group flags => enter d span (some flags)
  | .capture name => enter (← addName d name) span none

def closeGroup (d : Draft) : Reads Draft := do
  match d.groups with
  | [] => refuseCurrent .unopenedGroup
  | g :: groups =>
    modify fun c => { c with isSpaced := g.wasSpaced }
    let inner := d.body.finish (← place)
    step
    return { d with body := g.around.add (.group (← spanFrom g.span.start) g.flags inner), groups }

/-! ## Repetitions -/

/-- A repetition of the last part by the operator that has just been read, which a question mark
makes reluctant. -/
def repetition (d : Draft) (operand : Tree) (count : Count) : Reads Draft := do
  let _ ← takes "?"
  return d.add (.repetition (← spanFrom operand.span.start) count operand)

def simpleRepetition (d : Draft) (count : Count) : Reads Draft := do
  match d.body.operand? with
  | none => refuseHere .noOperand
  | some (t, body) =>
    step
    repetition { d with body } t count

/-- A number of times, a smallest number, or a smallest and a largest. A missing number is told only
after what follows it. -/
def counts (start : Place) : Reads Count := do
  let least ← decimal
  match ← current with
  | none => refuseFrom .openCount start
  | some ',' =>
    match ← next with
    | none => refuseFrom .openCount start
    | some '}' => return ⟨← least, none⟩
    | some _ =>
      let n ← least
      return ⟨n, some (← ← decimal)⟩
  | some _ =>
    let n ← least
    return ⟨n, some n⟩

def countedRepetition (d : Draft) : Reads Draft := do
  match d.body.operand? with
  | none => refuseHere .noOperand
  | some (t, body) =>
    let start ← place
    if (← next).isNone then refuseFrom .openCount start
    else
      let count ← counts start
      if (← current) ≠ some '}' then refuseFrom .openCount start
      else
        let _ ← next
        let d ← repetition { d with body } t count
        match count.most with
        | none => return d
        | some most => if most < count.least then refuseFrom .reversedCount start else return d

/-! ## Patterns -/

def readPart (d : Draft) (c : Char) : Reads Draft := do
  let span ← currentSpan
  let one (t : Tree) : Reads Draft := do
    step
    return d.add t
  match c with
  | '(' => openGroup d
  | ')' => closeGroup d
  | '|' =>
    step
    return { d with body := d.body.alternate span.start (← place) }
  | '[' => return d.add (← bracket)
  | '?' => simpleRepetition d ⟨0, some 1⟩
  | '*' => simpleRepetition d ⟨0, none⟩
  | '+' => simpleRepetition d ⟨1, none⟩
  | '{' => countedRepetition d
  | '\\' => return d.add (← escape)
  | '.' => one (.dot span)
  | '^' => one (.assertion span .lineStart)
  | '$' => one (.assertion span .lineEnd)
  | c => one (.literal ⟨span, c, false⟩)

/-- Reads the rest of a pattern. Every part takes a character off the budget. -/
def readParts : (budget : Nat) → Draft → Reads Draft
  | 0, d => return d
  | budget + 1, d => do
    skip
    match ← current with
    | none => return d
    | some c => readParts budget (← readPart d c)

def readTree : Reads Tree := do
  let c ← get
  let d ← readParts (c.rest.length + 1) ⟨.begin c.place, [], []⟩
  match d.groups with
  | g :: _ => refuse .openGroup g.span
  | [] =>
    let tree := d.body.finish (← place)
    match tree.tooDeep? 0 with
    | some span => refuse .tooDeep span
    | none => return tree

def Tree.read (pattern : String) : Except Fault Tree := readTree.run' (.start pattern)

end PhraseVault.Pattern
