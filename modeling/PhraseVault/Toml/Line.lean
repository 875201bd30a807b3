import PhraseVault.Toml.Text
import PhraseVault.Toml.Scalar

/-!
# Lines of a document

A document is a list of lines: values under a path of keys, and headings that say which table the
values below belong to.
-/
namespace PhraseVault.Toml

inductive Value where
  | text (s : String)
  | scalar
  | list (items : List Value)
  | table (entries : List (List String × Value))

inductive Line where
  | entry (path : List String) (value : Value)
  | table (path : List String)
  /-- One more table of a list of tables. -/
  | item (path : List String)

def dropSpace (cs : List Char) : List Char := cs.dropWhile isSpace

/-- A comment runs to the end of its line. -/
def dropComment? : List Char → Option (List Char)
  | '#' :: cs =>
    let rest := cs.dropWhile isPrintable
    if rest = [] || (newline? rest).isSome then some rest else none
  | cs => some cs

/-- Blanks, comments and line ends between the items of a list. -/
def dropFiller : (budget : Nat) → List Char → Option (List Char)
  | 0, cs => some cs
  | budget + 1, cs => do
    let cs ← dropComment? (dropSpace cs)
    match newline? cs with
    | some rest => dropFiller budget rest
    | none => some cs

def isBare (c : Char) : Bool := isDigit c || isLetter c || c = '_' || c = '-'

def key : Reader String
  | '"' :: cs => line '"' cs
  | '\'' :: cs => line '\'' cs
  | cs =>
    if (cs.takeWhile isBare).isEmpty then none
    else some (String.ofList (cs.takeWhile isBare), cs.dropWhile isBare)

/-- Keys with points between them, and blanks around each. -/
def keys : (budget : Nat) → Reader (List String)
  | 0, _ => none
  | budget + 1, cs => do
    let (k, rest) ← key (dropSpace cs)
    match dropSpace rest with
    | '.' :: rest =>
      let (ks, rest) ← keys budget rest
      return (k :: ks, rest)
    | rest => return ([k], rest)

/-- Paths and nested values stay below this depth. -/
def maxDepth : Nat := 80

def path : Reader (List String) := fun cs => do
  let (ks, rest) ← keys (cs.length + 1) cs
  if ks.length < maxDepth then some (ks, rest) else none

def isScalarChar (c : Char) : Bool := isBare c || c = '+' || c = '.' || c = ':'

/-- A value's spelling; a date may be followed by a blank and a time. -/
def spelling (cs : List Char) : List Char × List Char :=
  let word := cs.takeWhile isScalarChar
  match cs.dropWhile isScalarChar with
  | ' ' :: c :: rest =>
    if isDate word && isDigit c then
      (word ++ ' ' :: (c :: rest).takeWhile isScalarChar, (c :: rest).dropWhile isScalarChar)
    else (word, ' ' :: c :: rest)
  | rest => (word, rest)

def scalar : Reader Value := fun cs =>
  let (word, rest) := spelling cs
  if isScalar word then some (.scalar, rest) else none

/-! Every reader below takes a character before it starts another, so the budget bounds their
number; `depth` says how deep lists and tables may still be nested. -/

mutual

def valueWithin : (budget depth : Nat) → Reader Value
  | 0, _, _ => none
  | budget + 1, depth, cs =>
    match cs with
    | '"' :: rest => (quoted '"' rest).map fun (s, rest) => (.text s, rest)
    | '\'' :: rest => (quoted '\'' rest).map fun (s, rest) => (.text s, rest)
    | '[' :: rest =>
      if depth ≤ 1 then none
      else do
        let rest ← dropFiller rest.length rest
        let (vs, rest) ← itemsWithin budget (depth - 1) rest
        return (.list vs, rest)
    | '{' :: rest =>
      if depth ≤ 1 then none
      else match dropSpace rest with
        | '}' :: rest => some (.table [], rest)
        | rest => (entriesWithin budget (depth - 1) rest).map fun (es, rest) => (.table es, rest)
    | cs => scalar cs

/-- The items of a list; a comma may follow the last one. -/
def itemsWithin : (budget depth : Nat) → Reader (List Value)
  | 0, _, _ => none
  | budget + 1, depth, cs =>
    match cs with
    | ']' :: rest => some ([], rest)
    | cs => do
      let (v, rest) ← valueWithin budget depth cs
      match ← dropFiller rest.length rest with
      | ',' :: rest =>
        let rest ← dropFiller rest.length rest
        let (vs, rest) ← itemsWithin budget depth rest
        return (v :: vs, rest)
      | ']' :: rest => return ([v], rest)
      | _ => none

/-- The entries of a table on one line; no comma follows the last one. -/
def entriesWithin : (budget depth : Nat) → Reader (List (List String × Value))
  | 0, _, _ => none
  | budget + 1, depth, cs => do
    let (ks, rest) ← path cs
    let rest ← expect? '=' rest
    let (v, rest) ← valueWithin budget depth (dropSpace rest)
    match dropSpace rest with
    | ',' :: rest =>
      let (es, rest) ← entriesWithin budget depth rest
      return ((ks, v) :: es, rest)
    | '}' :: rest => return ([(ks, v)], rest)
    | _ => none

end

def readValue : Reader Value := fun cs => valueWithin (2 * cs.length + 1) maxDepth cs

def readEntry : Reader Line := fun cs => do
  let (ks, rest) ← path cs
  let rest ← expect? '=' rest
  let (v, rest) ← readValue (dropSpace rest)
  return (.entry ks v, rest)

def readLine : Reader Line
  | '[' :: '[' :: cs => do
    let (ks, rest) ← path cs
    let rest ← expect? ']' rest
    let rest ← expect? ']' rest
    return (.item ks, rest)
  | '[' :: cs => do
    let (ks, rest) ← path cs
    let rest ← expect? ']' rest
    return (.table ks, rest)
  | cs => readEntry cs

/-- What follows a line, unless something else stands on it. -/
def endLine? (cs : List Char) : Option (List Char) := do
  let cs ← dropComment? (dropSpace cs)
  if cs = [] then some [] else newline? cs

/-- The lines of a document; each takes a character at least. -/
def readLines : (budget : Nat) → List Char → Option (List Line)
  | 0, _ => none
  | budget + 1, cs => do
    let cs := dropSpace cs
    if cs = [] then some []
    else match newline? cs with
      | some rest => readLines budget rest
      | none =>
        if cs.head? = some '#' then
          match ← dropComment? cs with
          | [] => some []
          | rest => readLines budget rest
        else
          let (l, rest) ← readLine cs
          let ls ← readLines budget (← endLine? rest)
          return l :: ls

/-- A mark of the byte order may precede the first line. -/
def document (s : String) : Option (List Line) :=
  let cs := match s.toList with
    | '\uFEFF' :: cs => cs
    | cs => cs
  readLines (cs.length + 1) cs

end PhraseVault.Toml
