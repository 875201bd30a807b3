import PhraseVault.Pattern.Tree

/-!
# Sets of character codes

A set is a list of ranges in any order, of which each goes from its first code to its last.
-/
namespace PhraseVault.Pattern

abbrev CodeSet := List (Nat × Nat)

namespace CodeSet

def contains (s : CodeSet) (n : Nat) : Bool := s.any fun (low, high) => low ≤ n && n ≤ high

/-- What is left of a range outside another. -/
def cut (hole range : Nat × Nat) : CodeSet :=
  let (low, high) := range
  let (first, last) := hole
  if high < first || last < low then [range]
  else (if low < first then [(low, first - 1)] else []) ++
    (if last < high then [(last + 1, high)] else [])

def minus (s t : CodeSet) : CodeSet := t.foldl (fun s hole => s.flatMap (cut hole)) s

def inter (s t : CodeSet) : CodeSet := s.minus (s.minus t)

def isAscii (s : CodeSet) : Bool := s.all fun (_, high) => high < 0x80

/-- Letters of either case, wherever a set holds one of them. -/
def foldAscii (s : CodeSet) : CodeSet :=
  let upper := inter [(65, 90)] s
  let lower := inter [(97, 122)] s
  s ++ upper.map (fun (a, b) => (a + 32, b + 32)) ++ lower.map (fun (a, b) => (a - 32, b - 32))

end CodeSet

def SetOperation.apply (operation : SetOperation) (s t : CodeSet) : CodeSet :=
  match operation with
  | .intersection => s.inter t
  | .difference => s.minus t
  | .symmetricDifference => s.minus t ++ t.minus s

def AsciiClass.codes : AsciiClass → CodeSet
  | .alnum => [(48, 57), (65, 90), (97, 122)]
  | .alpha => [(65, 90), (97, 122)]
  | .ascii => [(0, 127)]
  | .blank => [(9, 9), (32, 32)]
  | .cntrl => [(0, 31), (127, 127)]
  | .digit => [(48, 57)]
  | .graph => [(33, 126)]
  | .lower => [(97, 122)]
  | .print => [(32, 126)]
  | .punct => [(33, 47), (58, 64), (91, 96), (123, 126)]
  | .space => [(9, 13), (32, 32)]
  | .upper => [(65, 90)]
  | .word => [(48, 57), (65, 90), (95, 95), (97, 122)]
  | .xdigit => [(48, 57), (65, 70), (97, 102)]

def ShortClass.codes : ShortClass → CodeSet
  | .digit => AsciiClass.digit.codes
  | .space => AsciiClass.space.codes
  | .word => AsciiClass.word.codes

end PhraseVault.Pattern
