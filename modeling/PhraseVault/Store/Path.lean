import PhraseVault.Bytes

/-!
# Paths

A path is a string of bytes, which need not be text. It passes through the names between its
slashes, from the top if it begins with a slash and else from the working directory.
-/
namespace PhraseVault

abbrev Path := Bytes

namespace Path

def slash : UInt8 := 0x2F

def dot : UInt8 := 0x2E

/-- The name of the directory one is in. -/
def here : Bytes := [dot]

/-- The name of the directory above. -/
def up : Bytes := [dot, dot]

def isAbsolute (p : Path) : Bool := p.head? == some slash

/-- A path that ends in a slash leads to nothing but a directory. -/
def isClosed (p : Path) : Bool := p.getLast? == some slash

/-- An absolute second path replaces the first. -/
def join (p q : Path) : Path :=
  if isAbsolute q then q
  else if p = [] ∨ isClosed p then p ++ q
  else p ++ slash :: q

/-- The pieces between the slashes; there always is one. -/
def pieces (p : Path) : List Bytes :=
  p.foldr (fun b ps =>
    if b = slash then [] :: ps
    else match ps with
      | [] => [[b]]
      | name :: rest => (b :: name) :: rest) [[]]

/-- The names a path passes through. -/
def names (p : Path) : List Bytes := p.pieces.filter (· ≠ [])

/-- The names that set a path apart from the ones above it: `.` counts only where a path begins. -/
def components (p : Path) : List Bytes :=
  match p.isAbsolute, p.names with
  | false, first :: rest => first :: rest.filter (· ≠ here)
  | _, names => names.filter (· ≠ here)

def ofComponents (absolute : Bool) (names : List Bytes) : Path :=
  (if absolute then [slash] else []) ++ [slash].intercalate names

/-- The paths above a path, the nearest one first, without the top and the empty path. -/
def ancestors (p : Path) : List Path :=
  let names := p.components
  (List.range (names.length - 1)).reverse.map fun n =>
    ofComponents p.isAbsolute (names.take (n + 1))

end Path
end PhraseVault
