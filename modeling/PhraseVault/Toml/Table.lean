import PhraseVault.Toml.Line

/-!
# Tables of a document

Lines are gathered into one table. No key is given twice, no table is headed twice, and a table that
was written out in one piece is not added to.
-/
namespace PhraseVault.Toml

mutual

inductive Item where
  | value (v : Value)
  | table (t : Table)
  /-- A list of tables, the last one first. -/
  | tables (ts : List Table)

/-- A table that is `implied` has been named on the way to another only, and one that is `dotted` by
the path of a value. -/
inductive Table where
  | mk (implied dotted : Bool) (items : List (String × Item))

end

namespace Table

def items : Table → List (String × Item)
  | mk _ _ items => items

def isImplied : Table → Bool
  | mk implied _ _ => implied

def isDotted : Table → Bool
  | mk _ dotted _ => dotted

def find? (t : Table) (k : String) : Option Item := t.items.lookup k

/-- Replaces the item of a key, or adds one. -/
def put (t : Table) (k : String) (i : Item) : Table :=
  match t with
  | mk implied dotted items => mk implied dotted ((k, i) :: items.filter fun (k', _) => k' ≠ k)

def empty : Table := mk false false []

def named (dotted : Bool) : Table := mk true dotted []

/-- Changes the table at the end of a path, naming those on the way. A dotted path does not lead
into a table that has a heading. -/
def change (dotted : Bool) (f : Table → Option Table) : (path : List String) → Table → Option Table
  | [], t => f t
  | k :: ks, t =>
    match t.find? k with
    | none => (change dotted f ks (named dotted)).map fun c => t.put k (.table c)
    | some (.table c) =>
      if dotted && !c.isImplied then none
      else (change dotted f ks c).map fun c => t.put k (.table c)
    | some (.tables (c :: cs)) => (change dotted f ks c).map fun c => t.put k (.tables (c :: cs))
    | some _ => none

/-- A new key of a table that values are being added to in the same way. -/
def addNew (dotted : Bool) (k : String) (i : Item) (t : Table) : Option Table :=
  if t.isDotted ≠ dotted || (t.find? k).isSome then none else some (t.put k i)

/-- Adds an item under a path of keys. -/
def add (path : List String) (i : Item) (t : Table) : Option Table :=
  match path.getLast? with
  | none => none
  | some k =>
    let front := path.dropLast
    change true (addNew (front ≠ []) k i) front t

/-- Heads a table that so far has been named by longer headings at most. -/
def head (k : String) (t : Table) : Option Table :=
  match t.find? k with
  | none => some (t.put k (.table empty))
  | some (.table (mk true false items)) => some (t.put k (.table (mk false false items)))
  | some _ => none

/-- Begins one more table of a list of tables. -/
def headItem (k : String) (t : Table) : Option Table :=
  match t.find? k with
  | none => some (t.put k (.tables [empty]))
  | some (.tables ts) => some (t.put k (.tables (empty :: ts)))
  | some _ => none

/-- Applies `f` to the last key of a path in the table before it. -/
def headWith (f : String → Table → Option Table) (path : List String) (t : Table) : Option Table :=
  match path.getLast? with
  | none => none
  | some k => change false (f k) path.dropLast t

/-- Adds a value below the last heading. -/
def addBelow (heading path : List String) (v : Value) (t : Table) : Option Table :=
  change false (add path (.value v)) heading t

end Table

/-- The entries of a value written in one piece have to make a table. -/
def Value.wellFormed : Value → Bool
  | .text _ => true
  | .scalar => true
  | .list vs => listWellFormed vs
  | .table es =>
    entriesWellFormed es &&
      (es.foldlM (fun t (p, v) => Table.add p (.value v) t) Table.empty).isSome
where
  listWellFormed : List Value → Bool
    | [] => true
    | v :: vs => v.wellFormed && listWellFormed vs
  entriesWellFormed : List (List String × Value) → Bool
    | [] => true
    | (_, v) :: es => v.wellFormed && entriesWellFormed es

/-- Gathers lines; `heading` is the path of the last heading. -/
def gather (heading : List String) (t : Table) : List Line → Option Table
  | [] => some t
  | .entry path v :: ls => do
    if v.wellFormed then gather heading (← t.addBelow heading path v) ls else none
  | .table path :: ls => do gather path (← t.headWith Table.head path) ls
  | .item path :: ls => do gather path (← t.headWith Table.headItem path) ls

/-- The table of a document. -/
def read (s : String) : Option Table := do gather [] Table.empty (← document s)

end PhraseVault.Toml
