import PhraseVault.Store.Basic
import PhraseVault.Store.Node

/-!
# File systems

A tree of nodes and a working directory in it. A path is walked name by name; each name but the last
has to lead to a directory, and links are followed on the way. What an operation does to the name at
the end of its path is up to it. Names have at most 255 bytes and paths fewer than 4096.
-/
namespace PhraseVault

/-- The names from the top down to a node, the last one first. -/
abbrev Trail := List Bytes

structure FileSystem where
  top : Node
  working : Trail

namespace FileSystem

def maxNameLength : Nat := 255

def maxPathLength : Nat := 4095

/-- The number of links that are followed in one walk. -/
def maxLinks : Nat := 40

def publicDirectoryMode : Nat := 0o755

def publicFileMode : Nat := 0o644

def privateDirectoryMode : Nat := 0o700

def privateFileMode : Nat := 0o600

def node? (fs : FileSystem) (t : Trail) : Option Node := fs.top.find? t.reverse

/-- The entries of a directory; what is none has no entries. -/
def entries (fs : FileSystem) (t : Trail) : Entries :=
  match fs.node? t with
  | some (.directory _ es) => es
  | _ => []

def modify (f : Node → Node) (t : Trail) (fs : FileSystem) : FileSystem :=
  { fs with top := fs.top.modify f t.reverse }

/-- The end of a walk: a directory, and unless the path leads to that directory itself, a name in
it, which need not be taken. A closed end is one that has to be a directory. -/
structure Spot where
  folder : Trail
  name : Option Bytes
  closed : Bool

def Spot.trail (s : Spot) : Trail := s.name.elim s.folder (· :: s.folder)

/-- Walks on from a directory with the given entries. Whether a link at the end is followed is up to
`follows`, which is told whether the end is closed; `detour` walks on where a link leads. -/
def walk (fs : FileSystem) (follows : Bool → Bool)
    (detour : Trail → Entries → List Bytes → Bool → Except IoFault Spot) :
    Trail → Entries → List Bytes → Bool → Except IoFault Spot
  | t, _, [], closed => .ok ⟨t, none, closed⟩
  | t, es, name :: rest, closed =>
    if name = Path.here then walk fs follows detour t es rest closed
    else if name = Path.up then walk fs follows detour t.tail (fs.entries t.tail) rest closed
    else if maxNameLength < name.length then .error .nameTooLong
    else match es.get? name, rest with
      | some (.link target), rest =>
        if rest = [] ∧ ¬follows closed then .ok ⟨t, some name, closed⟩
        else
          let closed := closed || (rest.isEmpty && target.isClosed)
          if target.isAbsolute then detour [] (fs.entries []) (target.names ++ rest) closed
          else detour t es (target.names ++ rest) closed
      | _, [] => .ok ⟨t, some name, closed⟩
      | some (.directory _ inner), rest => walk fs follows detour (name :: t) inner rest closed
      | some (.file ..), _ => .error .notDirectory
      | none, _ => .error .notFound

/-- A walk that follows at most so many links. -/
def walkLinks (fs : FileSystem) (follows : Bool → Bool) :
    Nat → Trail → Entries → List Bytes → Bool → Except IoFault Spot
  | 0 => fs.walk follows fun _ _ _ _ => .error .tooManyLinks
  | links + 1 => fs.walk follows (fs.walkLinks follows links)

def always (_closed : Bool) : Bool := true

def never (_closed : Bool) : Bool := false

/-- Where a path ends. -/
def spot (fs : FileSystem) (follows : Bool → Bool) (p : Path) : Except IoFault Spot :=
  if p = [] then .error .notFound
  else if 0 ∈ p then .error .zeroByte
  else if maxPathLength < p.length then .error .nameTooLong
  else
    let start := if p.isAbsolute then [] else fs.working
    fs.walkLinks follows maxLinks start (fs.entries start) p.names p.isClosed

/-- The node a path leads to, through links. -/
def find (fs : FileSystem) (p : Path) : Except IoFault Node := do
  let s ← fs.spot always p
  match fs.node? s.trail with
  | none => throw .notFound
  | some n => if s.closed && !n.isDirectory then throw .notDirectory else return n

def holds (fs : FileSystem) (p : Path) : Bool := (fs.find p).toOption.isSome

def holdsDirectory (fs : FileSystem) (p : Path) : Bool :=
  (fs.find p).toOption.any Node.isDirectory

/-- What reading a path gives, if anything stands there. -/
def content? (fs : FileSystem) (p : Path) : Option (Except IoFault Bytes) :=
  match fs.find p with
  | .ok (.file content _) => some (.ok content)
  | .ok _ => some (.error .isDirectory)
  | .error _ => none

/-- The entries of the directory a path leads to. -/
def list (fs : FileSystem) (p : Path) : Except IoFault Entries := do
  match ← fs.find p with
  | .directory _ es => return es
  | _ => throw .notDirectory

def makeDirectory (p : Path) (fs : FileSystem) : Except IoFault FileSystem := do
  let s ← fs.spot never p
  match s.name with
  | none => throw .alreadyThere
  | some name =>
    if (fs.node? s.trail).isSome then throw .alreadyThere
    else return fs.modify (.mapEntries (.put name (.directory publicDirectoryMode []))) s.folder

/-- Makes directories one after the other; one may be there already. -/
def makeEach : List Path → FileSystem → Except IoFault Unit × FileSystem
  | [], fs => (.ok (), fs)
  | p :: ps, fs =>
    match fs.makeDirectory p with
    | .ok fs => makeEach ps fs
    | .error e =>
      if e = .alreadyThere ∧ fs.holdsDirectory p then makeEach ps fs else (.error e, fs)

/-- Goes up a list of paths to one at which a directory is or can be made, and then makes the
`missing` ones. -/
def makeUpwards : List Path → (missing : List Path) → FileSystem → Except IoFault Unit × FileSystem
  | [], missing, fs => makeEach missing fs
  | p :: ps, missing, fs =>
    match fs.makeDirectory p with
    | .ok fs => makeEach missing fs
    | .error .notFound => makeUpwards ps (p :: missing) fs
    | .error e =>
      if e = .alreadyThere ∧ fs.holdsDirectory p then makeEach missing fs else (.error e, fs)

/-- Makes a directory and those above it. Those that it could make stay when it fails. -/
def makeDirectories (p : Path) (fs : FileSystem) : Except IoFault Unit × FileSystem :=
  if p.components = [] then (.ok (), fs) else makeUpwards (p :: p.ancestors) [] fs

def setMode (p : Path) (mode : Nat) (fs : FileSystem) : Except IoFault FileSystem := do
  let s ← fs.spot always p
  let _ ← fs.find p
  return fs.modify (.withMode mode) s.trail

/-- The file that opening a path for writing opens or makes, as a name in a directory. A closed end
is refused before it is looked at. -/
def target (fs : FileSystem) (p : Path) : Except IoFault (Trail × Bytes) := do
  let s ← fs.spot not p
  match s.name with
  | none => throw .isDirectory
  | some name =>
    if s.closed || (fs.node? s.trail).any Node.isDirectory then throw .isDirectory
    else return (s.folder, name)

/-- Writes a file anew. The mode may depend on the node that has been there. -/
def writeFile (p : Path) (content : Bytes) (mode : Option Node → Nat) (fs : FileSystem) :
    Except IoFault FileSystem := do
  let (folder, name) ← fs.target p
  let mode := mode (fs.node? (name :: folder))
  return fs.modify (.mapEntries (.put name (.file content mode))) folder

/-- Removes a file, or a link and not what it leads to. -/
def remove (p : Path) (fs : FileSystem) : Except IoFault FileSystem := do
  let s ← fs.spot never p
  match s.name, fs.node? s.trail with
  | none, _ | _, some (.directory ..) => throw .isDirectory
  | _, none => throw .notFound
  | some name, some _ =>
    if s.closed then throw .notDirectory
    else return fs.modify (.mapEntries (.without name)) s.folder

/-- Gives a file or a link another path, in the place of a file or a link that stands there. -/
def rename (p q : Path) (fs : FileSystem) : Except IoFault FileSystem := do
  let s ← fs.spot never p
  let t ← fs.spot never q
  match s.name, t.name with
  | some old, some new =>
    match fs.node? s.trail, fs.node? t.trail with
    | none, _ => throw .notFound
    | some n, other =>
      if s.closed || t.closed then throw .notDirectory
      else if n.isDirectory || other.any Node.isDirectory then throw .isDirectory
      else
        let fs := fs.modify (.mapEntries (.without old)) s.folder
        return fs.modify (.mapEntries (.put new n)) t.folder
  | _, _ => throw .busy

def makeLink (p target : Path) (fs : FileSystem) : Except IoFault FileSystem := do
  if target = [] then throw .notFound
  if maxPathLength < target.length then throw .nameTooLong
  let s ← fs.spot never p
  match s.name with
  | none => throw .alreadyThere
  | some name =>
    if (fs.node? s.trail).isSome then throw .alreadyThere
    else if s.closed then throw .notFound
    else return fs.modify (.mapEntries (.put name (.link target))) s.folder

/-- A file system with only the directories down to the working directory. -/
def bare (working : List Bytes) : FileSystem :=
  ⟨working.foldr (fun name n => .directory publicDirectoryMode [(name, n)])
    (.directory publicDirectoryMode []), working.reverse⟩

/-- Keeps the file system when an operation fails. -/
def attempt (f : FileSystem → Except IoFault FileSystem) (fs : FileSystem) :
    Except IoFault Unit × FileSystem :=
  match f fs with
  | .ok fs => (.ok (), fs)
  | .error e => (.error e, fs)

/-- The mode a file keeps when it is overwritten, and that of a new one. -/
def keptMode : Option Node → Nat
  | some (.file _ mode) => mode
  | _ => publicFileMode

/-- Writes a file in a directory that is made if need be. -/
def placeFile (p : Path) (content : Bytes) (fs : FileSystem) : Except IoFault Unit × FileSystem :=
  match (p.ancestors.head?).elim (.ok (), fs) (makeDirectories · fs) with
  | (.ok _, fs) => attempt (writeFile p content keptMode) fs
  | (.error e, fs) => (.error e, fs)

end FileSystem
end PhraseVault
