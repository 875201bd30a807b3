import PhraseVault.Store.Path

/-!
# Nodes of a file system

A node is a file, a link or a directory with named nodes in it. The entries of a directory are in
increasing order of their names. The main statements say what is found under a name once another
node has been put there or has been taken away.
-/
namespace PhraseVault

inductive Node where
  | file (content : Bytes) (mode : Nat)
  | link (target : Path)
  | directory (mode : Nat) (entries : List (Bytes × Node))

abbrev Entries := List (Bytes × Node)

namespace Entries

/-- What stands under a name. -/
def get? (es : Entries) (name : Bytes) : Option Node := es.lookup name

/-- Puts a node under a name, in the place of what stands there. -/
def put (name : Bytes) (n : Node) : Entries → Entries
  | [] => [(name, n)]
  | (other, m) :: rest =>
    if other = name then (name, n) :: rest
    else if name < other then (name, n) :: (other, m) :: rest
    else (other, m) :: put name n rest

def without (name : Bytes) (es : Entries) : Entries := es.filter (·.1 ≠ name)

theorem get?_cons (name other : Bytes) (n : Node) (es : Entries) :
    get? ((other, n) :: es) name = if name = other then some n else es.get? name := by
  by_cases h : name = other
  · simp [get?, h]
  · have hb : (name == other) = false := by simpa using h
    simp [get?, List.lookup_cons, h, hb]

theorem get?_put_self (name : Bytes) (n : Node) (es : Entries) :
    (put name n es).get? name = some n := by
  induction es with
  | nil => simp [put, get?_cons]
  | cons e rest ih =>
    obtain ⟨other, m⟩ := e
    by_cases h : other = name
    · simp [put, h, get?_cons]
    · by_cases hl : name < other
      · simp [put, h, hl, get?_cons]
      · simp [put, h, hl, get?_cons, Ne.symm h, ih]

theorem get?_put_of_ne {name other : Bytes} (h : other ≠ name) (n : Node) (es : Entries) :
    (put name n es).get? other = es.get? other := by
  induction es with
  | nil => simp [put, get?_cons, h]
  | cons e rest ih =>
    obtain ⟨first, m⟩ := e
    by_cases hf : first = name
    · subst hf
      simp [put, get?_cons, h]
    · by_cases hl : name < first
      · simp [put, hf, hl, get?_cons, h]
      · simp [put, hf, hl, get?_cons, ih]

theorem get?_without_self (name : Bytes) (es : Entries) : (without name es).get? name = none := by
  induction es with
  | nil => rfl
  | cons e rest ih =>
    obtain ⟨first, m⟩ := e
    by_cases hf : first = name
    · simpa [without, hf] using ih
    · simpa [without, hf, get?_cons, Ne.symm hf] using ih

theorem get?_without_of_ne {name other : Bytes} (h : other ≠ name) (es : Entries) :
    (without name es).get? other = es.get? other := by
  induction es with
  | nil => rfl
  | cons e rest ih =>
    obtain ⟨first, m⟩ := e
    by_cases hf : first = name
    · subst hf
      simpa [without, get?_cons, h] using ih
    · simpa [without, hf, get?_cons] using
        congrArg (fun r => if other = first then some m else r) ih

end Entries

namespace Node

def isDirectory : Node → Bool
  | directory .. => true
  | _ => false

/-- The node that a list of names leads down to. Links are not followed. -/
def find? (n : Node) : List Bytes → Option Node
  | [] => some n
  | name :: rest =>
    match n with
    | directory _ es =>
      match Entries.get? es name with
      | some m => m.find? rest
      | none => none
    | _ => none

/-- Changes the node that a list of names leads down to, if there is one. -/
def modify (f : Node → Node) (n : Node) : List Bytes → Node
  | [] => f n
  | name :: rest =>
    match n with
    | directory mode es =>
      match Entries.get? es name with
      | some m => directory mode (Entries.put name (m.modify f rest) es)
      | none => n
    | _ => n

def withMode (mode : Nat) : Node → Node
  | file content _ => file content mode
  | directory _ es => directory mode es
  | link target => link target

def mapEntries (f : Entries → Entries) : Node → Node
  | directory mode es => directory mode (f es)
  | n => n

end Node
end PhraseVault
