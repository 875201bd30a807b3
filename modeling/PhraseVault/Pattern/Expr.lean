import PhraseVault.Pattern.CodeSet
import PhraseVault.Text.Digit

/-!
# What patterns match

An expression says which stretches of a text it matches. To match is to carry marks: each place of
a text, before a character or at the end, is marked or not, and an expression moves the marks from
where a stretch may start to where it may end.
-/
namespace PhraseVault.Pattern

/-- A condition on a place, by the characters before and after it. -/
inductive Look where
  | textStart
  | textEnd
  | lineStart
  | lineEnd
  /-- Lines may also end with a carriage return, alone or before a line feed. -/
  | crlfStart
  | crlfEnd
  | wordEdge
  | notWordEdge
  | wordStart
  | wordEnd
  | wordStartHalf
  | wordEndHalf
  /-- An edge between words of any letters. -/
  | unicodeWordEdge
  deriving DecidableEq

def isWordChar (c : Option Char) : Bool :=
  match c with
  | none => false
  | some c => isLetter c || isDigit c || c = '_'

def Look.holds (l : Look) (before after : Option Char) : Bool :=
  match l with
  | .textStart => before.isNone
  | .textEnd => after.isNone
  | .lineStart => before.isNone || before = some '\n'
  | .lineEnd => after.isNone || after = some '\n'
  | .crlfStart =>
    before.isNone || before = some '\n' || (before = some '\r' && after ≠ some '\n')
  | .crlfEnd => after.isNone || after = some '\r' || (after = some '\n' && before ≠ some '\r')
  | .wordEdge => isWordChar before != isWordChar after
  | .notWordEdge => isWordChar before == isWordChar after
  | .wordStart => !isWordChar before && isWordChar after
  | .wordEnd => isWordChar before && !isWordChar after
  | .wordStartHalf => !isWordChar before
  | .wordEndHalf => !isWordChar after
  | .unicodeWordEdge => false

inductive Expr where
  | empty
  | chars (set : CodeSet)
  | look (l : Look)
  | seq (a b : Expr)
  | either (a b : Expr)
  | group (e : Expr)
  | repeated (e : Expr) (count : Count)

/-- One mark for each place of a text. -/
abbrev Marks := List Bool

namespace Marks

def all (text : List Char) : Marks := true :: text.map fun _ => true

def union (s t : Marks) : Marks := s.zipWith (· || ·) t

def minus (s t : Marks) : Marks := s.zipWith (· && !·) t

/-- The places that are reached in so many rounds. Rounds that change nothing are not repeated. -/
def iterate (f : Marks → Marks) : Nat → Marks → Marks
  | 0, s => s
  | n + 1, s =>
    let t := f s
    if t = s then s else iterate f n t

/-- The places that are reached in at most so many rounds, where `fresh` were reached last. -/
def spread (f : Marks → Marks) : Nat → (reached fresh : Marks) → Marks
  | 0, reached, _ => reached
  | n + 1, reached, fresh =>
    let new := (f fresh).minus reached
    if new.contains true then spread f n (reached.union new) new else reached

end Marks

/-- The places where a condition holds, after the given character. -/
def Look.marks (l : Look) : (before : Option Char) → List Char → Marks
  | before, [] => [l.holds before none]
  | before, c :: cs => l.holds before (some c) :: l.marks (some c) cs

namespace Expr

/-- The places where stretches that match may end, from those where they may start. A stretch that
is made of more parts than the text has places repeats an empty part, which may as well be left
out or repeated once more; so no more rounds than that count. -/
def reach (text : List Char) : Expr → Marks → Marks
  | .empty => fun s => s
  | .chars set => fun s => false :: s.zipWith (fun m c => m && set.contains c.toNat) text
  | .look l => fun s => s.zipWith (· && ·) (l.marks none text)
  | .seq a b => fun s => reach text b (reach text a s)
  | .either a b => fun s => (reach text a s).union (reach text b s)
  | .group e => reach text e
  | .repeated e count => fun s =>
    let rounds := text.length + 1
    let reached := Marks.iterate (reach text e) (min count.least rounds) s
    let more := match count.most with
      | none => rounds
      | some most => min (most - count.least) rounds
    Marks.spread (reach text e) more reached reached

/-- Whether a stretch of a text matches. -/
def occursIn (e : Expr) (text : List Char) : Bool :=
  (e.reach text (Marks.all text)).contains true

/-- Either of two; two sets of characters are one. -/
def choice : Expr → Expr → Expr
  | .chars s, .chars t => .chars (s ++ t)
  | a, b => .either a b

/-- Whether only an empty stretch can match. -/
def isWidthless : Expr → Bool
  | .empty => true
  | .chars _ => false
  | .look _ => true
  | .seq a b => a.isWidthless && b.isWidthless
  | .either a b => a.isWidthless && b.isWidthless
  | .group e => e.isWidthless
  | .repeated e _ => e.isWidthless

/-- The expression in groups. -/
def ungrouped : Expr → Expr
  | .group e => e.ungrouped
  | e => e

/-- A repetition of a repetition as one, if each of them starts from none or one and goes up to one
or any number. -/
def merged? (inner outer : Count) : Option Count :=
  match inner, outer with
  | ⟨a, none⟩, ⟨b, none⟩ => if a ≤ 1 ∧ b ≤ 1 then some ⟨a * b, none⟩ else none
  | ⟨a, none⟩, ⟨b, some 1⟩ => if a ≤ 1 ∧ b ≤ 1 then some ⟨a * b, none⟩ else none
  | ⟨a, some 1⟩, ⟨b, none⟩ => if a ≤ 1 ∧ b ≤ 1 then some ⟨a * b, none⟩ else none
  | ⟨a, some 1⟩, ⟨b, some 1⟩ => if a ≤ 1 ∧ b ≤ 1 then some ⟨a * b, some 1⟩ else none
  | _, _ => none

/-- Repeats an expression. What is empty is repeated once at most. -/
def times (e : Expr) (count : Count) : Expr :=
  let count : Count :=
    if e.isWidthless then ⟨min count.least 1, some (min (count.most.getD 1) 1)⟩ else count
  if count.most = some 0 then .empty
  else if count.least = 1 ∧ count.most = some 1 then e
  else match e.ungrouped with
    | .repeated inner first =>
      match merged? first count with
      | some count => .repeated inner count
      | none => .repeated e count
    | _ => .repeated e count

/-- Whether a condition on a place stands anywhere in an expression. -/
def hasLook (l : Look) : Expr → Bool
  | .empty => false
  | .chars _ => false
  | .look k => k = l
  | .seq a b => a.hasLook l || b.hasLook l
  | .either a b => a.hasLook l || b.hasLook l
  | .group e => e.hasLook l
  | .repeated e _ => e.hasLook l

/-! ## Size -/

/-- The bytes that a state of a machine for an expression takes. -/
def stateSize : Nat := 32

/-- The bytes of states that part into several ways, and of as many ways. -/
def waysSize (states ways : Nat) : Nat := states * stateSize + 4 * ways

/-- About how many bytes are taken by states that read a character of a set. Going backward through
a text, a machine finds the first byte of a character last, and shares fewer states. -/
def setSize (isBackward : Bool) (set : CodeSet) : Nat :=
  match set with
  | [(low, high)] =>
    if low = high then stateSize * (Char.ofNat low).utf8Size
    else if high < 0x80 then waysSize 2 2
    else if isBackward then waysSize 30 10 else waysSize 9 34
  | _ =>
    if set.isAscii then waysSize 2 (2 * set.length)
    else if isBackward then waysSize 30 10 else waysSize 9 34

def isEither : Expr → Bool
  | .either _ _ => true
  | _ => false

/-- About how many bytes a machine for an expression takes. A count has its expression as often as
it may repeat it; going backward, groups are not noted. -/
def size (isBackward : Bool) : Expr → Nat
  | .empty => stateSize
  | .chars set => setSize isBackward set
  | .look _ => stateSize
  | .seq a b => a.size isBackward + b.size isBackward
  | .either a b =>
    a.size isBackward + b.size isBackward + if b.isEither then waysSize 0 1 else waysSize 2 2
  | .group e => e.size isBackward + if isBackward then 0 else waysSize 2 0
  | .repeated e ⟨least, none⟩ => max least 1 * e.size isBackward + waysSize 1 2
  | .repeated e ⟨least, some most⟩ =>
    if least = most then least * e.size isBackward
    else least * e.size isBackward + (most - least) * (e.size isBackward + waysSize 1 2) +
      waysSize 1 0

/-- The bytes of a machine that looks for an expression anywhere in a text. -/
def machineSize (e : Expr) : Nat := waysSize 5 2 + max (e.size false) (e.size true)

end Expr

end PhraseVault.Pattern
