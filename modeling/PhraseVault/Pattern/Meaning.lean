import PhraseVault.Pattern.Expr
import PhraseVault.Pattern.Reader

/-!
# What written patterns mean

Flags decide what letters, dots, lines and classes mean. Classes and cases are those of ASCII; where
Unicode's would be meant, the pattern is refused.
-/
namespace PhraseVault.Pattern

/-- The flags that hold at a place of a pattern. -/
structure Mode where
  caseless : Bool
  multiLine : Bool
  dotAll : Bool
  crlf : Bool
  unicode : Bool

namespace Mode

def plain : Mode := ⟨false, false, false, false, true⟩

def set (m : Mode) (f : Flag × Bool) : Mode :=
  match f.1 with
  | .caseless => { m with caseless := f.2 }
  | .multiLine => { m with multiLine := f.2 }
  | .dotAll => { m with dotAll := f.2 }
  | .crlf => { m with crlf := f.2 }
  | .unicode => { m with unicode := f.2 }
  | .swapGreed => m
  | .spaced => m

def setAll (m : Mode) (flags : Flags) : Mode := flags.foldl set m

end Mode

def fault {α : Type} (cause : Cause) (s : Span) : Except Fault α := .error ⟨cause, s, none⟩

/-! ## Classes -/

/-- The character of a literal. Without Unicode an escape of two digits names a byte, and a byte
that is no character of its own would break a text. -/
def Literal.scalar (m : Mode) (l : Literal) : Except Fault Char :=
  if !m.unicode && l.isByte && 0x80 ≤ l.char.toNat then fault .brokenText l.span else .ok l.char

/-- The code of a literal in a class. -/
def Literal.code (m : Mode) (l : Literal) : Except Fault Nat := do
  let n := (← l.scalar m).toNat
  if !m.unicode && 0x80 ≤ n then fault .unicodeRefused l.span else return n

/-- Everything outside a set. -/
def Mode.complement (m : Mode) (s : CodeSet) : CodeSet :=
  CodeSet.minus (if m.unicode then [(0, 0xD7FF), (0xE000, 0x10FFFF)] else [(0, 0xFF)]) s

/-- Letters of either case, if the mode asks for it. A set with members of its own cannot be
folded under Unicode. -/
def Mode.fold (m : Mode) (span : Span) (hasMembers : Bool) (s : CodeSet) : Except Fault CodeSet :=
  if !m.caseless then .ok s
  else if !m.unicode then .ok s.foldAscii
  else if hasMembers then fault .unicodeCaseless span
  else .ok s

/-- A class from the set in it. Without Unicode it may hold single bytes only. -/
def Mode.close (m : Mode) (span : Span) (isNegated : Bool) (s : CodeSet) : Except Fault CodeSet :=
  let s := if isNegated then m.complement s else s
  if !m.unicode && !s.isAscii then fault .brokenText span else .ok s

def Shorthand.codes (m : Mode) (s : Shorthand) : Except Fault CodeSet :=
  if m.unicode then fault .unknownUnicodeClass s.span else m.close s.span s.isNegated s.kind.codes

/-- A property's name as names are compared: without the word it may start with, in lower case and
without separators. -/
def Property.key (p : Property) : String :=
  let cs := p.name.toList
  let word := String.ofList ((cs.take 2).map Char.toLower)
  let cs := if word = "is" then cs.drop 2 else cs
  let kept := cs.filter fun c => c.toNat < 0x80 && c ≠ ' ' && c ≠ '_' && c ≠ '-'
  String.ofList (kept.map Char.toLower)

/-- No property is known. Three names are those of values rather than of properties. -/
def Property.refusal (m : Mode) (p : Property) : Cause :=
  if !m.unicode then .unicodeRefused
  else if p.value.isNone && ["cf", "sc", "lc"].contains p.key then .unknownPropertyValue
  else .unknownProperty

/-- Whether characters or ranges stand right in a class. -/
def ClassTree.hasMembers : ClassTree → Bool
  | .literal _ => true
  | .range _ _ => true
  | .union _ items => items.any fun t =>
    match t with
    | .literal _ => true
    | .range _ _ => true
    | _ => false
  | _ => false

mutual

def ClassTree.codes (m : Mode) : ClassTree → Except Fault CodeSet
  | .literal l => do
    let n ← l.code m
    return [(n, n)]
  | .range a b => return [(← a.code m, ← b.code m)]
  | .ascii s isNegated kind => do m.close s isNegated (← m.fold s true kind.codes)
  | .shorthand s => s.codes m
  | .property p => fault (p.refusal m) p.span
  | .bracket s isNegated t => do
    let set ← t.codes m
    m.close s isNegated (← m.fold s t.hasMembers set)
  | .union _ ts => ClassTree.allCodes m ts
  | .operation op a b => do
    let s ← a.codes m
    let t ← b.codes m
    let t ← m.fold b.span b.hasMembers t
    let s ← m.fold a.span a.hasMembers s
    return op.apply s t

def ClassTree.allCodes (m : Mode) : List ClassTree → Except Fault CodeSet
  | [] => return []
  | t :: ts => do
    let s ← t.codes m
    return s ++ (← ClassTree.allCodes m ts)

end

/-! ## Characters and places -/

def Literal.expr (m : Mode) (l : Literal) : Except Fault Expr := do
  let n := (← l.scalar m).toNat
  if !m.caseless then return .chars [(n, n)]
  else if m.unicode then fault .unicodeCaseless l.span
  else if 0x80 ≤ n then fault .unicodeRefused l.span
  else return .chars (CodeSet.foldAscii [(n, n)])

/-- Any character, but for those that end a line. -/
def Mode.dot (m : Mode) (span : Span) : Except Fault Expr :=
  if !m.unicode then fault .brokenText span
  else
    let ends : CodeSet :=
      if m.dotAll then [] else if m.crlf then [(10, 10), (13, 13)] else [(10, 10)]
    .ok (.chars (m.complement ends))

def Mode.look (m : Mode) (a : Assertion) : Look :=
  let edge (l : Look) : Look := if m.unicode then .unicodeWordEdge else l
  match a with
  | .lineStart => if !m.multiLine then .textStart else if m.crlf then .crlfStart else .lineStart
  | .lineEnd => if !m.multiLine then .textEnd else if m.crlf then .crlfEnd else .lineEnd
  | .textStart => .textStart
  | .textEnd => .textEnd
  | .wordEdge => edge .wordEdge
  | .notWordEdge => edge .notWordEdge
  | .wordStart => edge .wordStart
  | .wordEnd => edge .wordEnd
  | .wordStartHalf => edge .wordStartHalf
  | .wordEndHalf => edge .wordEndHalf

/-! ## Patterns -/

/-- A meaning may depend on the flags before it, and set flags for what comes after. -/
abbrev Means (α : Type) := StateT Mode (Except Fault) α

mutual

def Tree.expr : Tree → Means Expr
  | .empty _ => return .empty
  | .flags _ fs => do
    modify (·.setAll fs)
    return .empty
  | .literal l => do l.expr (← get)
  | .dot s => do (← get).dot s
  | .assertion _ a => return .look ((← get).look a)
  | .shorthand s => return .chars (← s.codes (← get))
  | .property p => do fault (p.refusal (← get)) p.span
  | .bracket s isNegated t => do
    let m ← get
    let set ← t.codes m
    return .chars (← m.close s isNegated (← m.fold s t.hasMembers set))
  | .repetition _ count t => return (← t.expr).times count
  | .group _ fs t => do
    let m ← get
    modify (·.setAll (fs.getD []))
    let e ← t.expr
    set m
    return if fs.isNone then .group e else e
  | .alternation _ ts => Tree.anyExpr ts
  | .sequence _ ts => Tree.allExpr ts

/-- One after another. -/
def Tree.allExpr : List Tree → Means Expr
  | [] => return .empty
  | [t] => t.expr
  | t :: ts => do
    let e ← t.expr
    return .seq e (← Tree.allExpr ts)

/-- Any one of them. -/
def Tree.anyExpr : List Tree → Means Expr
  | [] => return .empty
  | [t] => t.expr
  | t :: ts => do
    let e ← t.expr
    return e.choice (← Tree.anyExpr ts)

end

/-! ## Compiling -/

/-- The bytes that a machine for a pattern may take. -/
def sizeLimit : Nat := 10485760

/-- Why a text is no pattern that can be matched. -/
inductive Refusal where
  | fault (f : Fault)
  | tooLarge
  /-- An edge between words of any letters cannot be told. -/
  | wordEdge
  deriving DecidableEq

def Refusal.message (pattern : String) : Refusal → String
  | .fault f => f.report pattern
  | .tooLarge => s!"Compiled regex exceeds size limit of {sizeLimit} bytes."
  | .wordEdge => "error building NFA"

def compile (pattern : String) : Except Refusal Expr := do
  let tree ← (Tree.read pattern).mapError .fault
  let e ← (tree.expr.run' .plain).mapError .fault
  if sizeLimit < e.machineSize then .error .tooLarge
  else if e.hasLook .unicodeWordEdge then .error .wordEdge
  else return e

end PhraseVault.Pattern
