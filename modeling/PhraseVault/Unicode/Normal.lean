import PhraseVault.Unicode.CombiningClass
import PhraseVault.Unicode.Decomposition

/-!
# Canonical composition

A text is taken apart into code points that do not come apart further, marks are put in the order of
their classes, and what composes is composed again. Texts with one such form look alike.
-/
namespace PhraseVault.Unicode

/-- Syllables are numbered by leading consonant, vowel and optional final consonant. -/
def splitHangul? (n : Nat) : Option (List Nat) :=
  if 0xAC00 ≤ n ∧ n ≤ 0xD7A3 then
    let i := n - 0xAC00
    let final := i % 28
    some ([0x1100 + i / 588, 0x1161 + i % 588 / 28] ++ if final = 0 then [] else [0x11A7 + final])
  else none

def composeHangul? (a b : Nat) : Option Nat :=
  if 0x1100 ≤ a ∧ a ≤ 0x1112 ∧ 0x1161 ≤ b ∧ b ≤ 0x1175 then
    some (0xAC00 + ((a - 0x1100) * 21 + (b - 0x1161)) * 28)
  else if 0xAC00 ≤ a ∧ a ≤ 0xD7A3 ∧ (a - 0xAC00) % 28 = 0 ∧ 0x11A8 ≤ b ∧ b ≤ 0x11C2 then
    some (a + (b - 0x11A7))
  else none

def splitPair? (n : Nat) : Option (List Nat) :=
  match (Decomposition.pairs ++ Decomposition.openPairs).find? fun (c, _) => c == n with
  | some (_, a, b) => some [a, b]
  | none => none

/-- One step of taking a code point apart. -/
def split? (n : Nat) : Option (List Nat) :=
  splitHangul? n <|> splitPair? n <|> (Decomposition.singletons.lookup n).map fun a => [a]

/-- All steps of taking a code point apart, up to the given number. -/
def decompose : (steps : Nat) → Nat → List Nat
  | 0, n => [n]
  | steps + 1, n =>
    match split? n with
    | some parts => parts.flatMap (decompose steps)
    | none => [n]

/-- No code point takes more steps. -/
def decompositionSteps : Nat := 4

/-- A code point beside its combining class. -/
structure Mark where
  code : Nat
  order : Nat

def mark (n : Nat) : Mark := ⟨n, combiningClass n⟩

def sortMarks (run : List Mark) : List Mark := run.mergeSort fun a b => a.order ≤ b.order

/-- Sorts each run of marks by class, keeping the order of equals; `run` is the run being read. -/
def reorder (run : List Mark) : List Mark → List Mark
  | [] => sortMarks run
  | m :: rest =>
    if m.order = 0 then sortMarks run ++ m :: reorder [] rest else reorder (run ++ [m]) rest

def compose? (a b : Nat) : Option Nat :=
  composeHangul? a b <|>
    (Decomposition.pairs.find? fun (_, x, y) => x == a && y == b).map fun (c, _) => c

/-- Composes onto the last starter. `kept` are the code points since, and `last` the class of the
last of them: one of that class or a lower one is blocked. -/
def recomposeFrom (starter : Nat) (kept : List Nat) (last : Option Nat) : List Mark → List Nat
  | [] => starter :: kept
  | m :: rest =>
    let joined := if last.all (· < m.order) then compose? starter m.code else none
    match joined with
    | some c => recomposeFrom c kept last rest
    | none =>
      if m.order = 0 then starter :: kept ++ recomposeFrom m.code [] none rest
      else recomposeFrom starter (kept ++ [m.code]) (some m.order) rest

/-- Marks before the first starter stay as they are. -/
def recompose : List Mark → List Nat
  | [] => []
  | m :: rest => if m.order = 0 then recomposeFrom m.code [] none rest else m.code :: recompose rest

/-- Code points before the first combining mark neither come apart nor join. -/
def isPlain (c : Char) : Bool := c.toNat < 0x300

/-- The composed normal form of a text. -/
def normalize (s : String) : String :=
  if s.toList.all isPlain then s
  else
    let parts := s.toList.flatMap fun c => decompose decompositionSteps c.toNat
    String.ofList ((recompose (reorder [] (parts.map mark))).map Char.ofNat)

end PhraseVault.Unicode
