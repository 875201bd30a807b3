import PhraseVault.Json.Skip
import PhraseVault.Cipher.Iv

/-!
# Reading values of a known shape

A reader takes a value off the front of the bytes, or reports the first thing that is wrong. A
record is an object with named members in any order, among members that are passed over, or a list
of exactly its fields.
-/
namespace PhraseVault.Json

abbrev Reader (α : Type) := Bytes → Except Fault (α × Bytes)

/-- Why the value that starts with `b` is not of the expected shape. -/
def wrongType (expected : Shape) (b : UInt8) (rest : Bytes) : Fault :=
  let found (r : Except Fault Found) : Fault :=
    match r with
    | .ok f => .wrongType f expected
    | .error e => e
  if b = ascii 'n' then found ((readWord ['u', 'l', 'l'] rest).map fun _ => .null)
  else if b = ascii 't' then found ((readWord ['r', 'u', 'e'] rest).map fun _ => .bool true)
  else if b = ascii 'f' then found ((readWord ['a', 'l', 's', 'e'] rest).map fun _ => .bool false)
  else if b = ascii '-' then found ((readNumber true rest).map fun (n, _) => n.found)
  else if isDigit b then found ((readNumber false (b :: rest)).map fun (n, _) => n.found)
  else if b = ascii '"' then found ((readText rest).map fun (s, _) => .text s)
  else if b = ascii '[' then .wrongType .list expected
  else if b = ascii '{' then .wrongType .object expected
  else .expectedValue

def text : Reader String := fun bytes =>
  match skipSpace bytes with
  | [] => .error .endInValue
  | b :: rest => if b = ascii '"' then readText rest else .error (wrongType .text b rest)

/-- A number of the expected shape lies in `[low, high)` and is an integer. -/
def inRange (expected : Shape) (low high : Int) (r : Number × Bytes) : Except Fault (Int × Bytes) :=
  match r with
  | (.integer n, rest) =>
    if low ≤ n ∧ n < high then .ok (n, rest) else .error (.wrongNumber n expected)
  | (n, _) => .error (.wrongType n.found expected)

def number (expected : Shape) (low high : Int) : Reader Int := fun bytes =>
  match skipSpace bytes with
  | [] => .error .endInValue
  | b :: rest =>
    if b = ascii '-' then readNumber true rest >>= inRange expected low high
    else if isDigit b then readNumber false (b :: rest) >>= inRange expected low high
    else .error (wrongType expected b rest)

def int32 : Reader Int32 := fun bytes =>
  (number .int32 (-0x80000000) 0x80000000 bytes).map fun (n, rest) => (Int32.ofInt n, rest)

def size : Reader Nat := fun bytes =>
  (number .size 0 wordLimit bytes).map fun (n, rest) => (n.toNat, rest)

/-- Whether another element stands before the end of a list; its comma is taken. -/
def nextElement (first : Bool) (bytes : Bytes) : Except Fault (Option Bytes) :=
  match skipSpace bytes with
  | [] => .error .endInList
  | b :: rest =>
    if b = ascii ']' then .ok none
    else if first then .ok (some (b :: rest))
    else if b = ascii ',' then
      match skipSpace rest with
      | [] => .error .endInValue
      | c :: rest => if c = ascii ']' then .error .trailingComma else .ok (some (c :: rest))
    else .error .expectedCommaOrBracket

def endList (bytes : Bytes) : Except Fault Bytes :=
  match skipSpace bytes with
  | [] => .error .endInList
  | b :: rest =>
    if b = ascii ']' then .ok rest
    else if b = ascii ',' then
      match skipSpace rest with
      | c :: _ => .error (if c = ascii ']' then .trailingComma else .trailingCharacters)
      | [] => .error .trailingCharacters
    else .error .trailingCharacters

/-- The elements of a list; every element takes a byte, which bounds their number. -/
def elements {α : Type} (item : Reader α) : (budget : Nat) → (first : Bool) → Reader (List α)
  | 0, _, _ => .error .endInList
  | budget + 1, first, bytes => do
    match ← nextElement first bytes with
    | none => return ([], bytes)
    | some bytes =>
      let (x, rest) ← item bytes
      let (xs, rest) ← elements item budget false rest
      return (x :: xs, rest)

def list {α : Type} (item : Reader α) : Reader (List α) := fun bytes =>
  match skipSpace bytes with
  | [] => .error .endInValue
  | b :: rest =>
    if b = ascii '[' then do
      let (xs, rest) ← elements item (rest.length + 1) true rest
      return (xs, ← endList rest)
    else .error (wrongType .list b rest)

/-- Whether another member stands before the end of an object; the quote of its name is taken. -/
def nextMember (first : Bool) (bytes : Bytes) : Except Fault (Option Bytes) :=
  match skipSpace bytes with
  | [] => .error .endInObject
  | b :: rest =>
    if b = ascii '}' then .ok none
    else if first then if b = ascii '"' then .ok (some rest) else .error .keyNotText
    else if b = ascii ',' then
      match skipSpace rest with
      | [] => .error .endInValue
      | c :: rest =>
        if c = ascii '"' then .ok (some rest)
        else .error (if c = ascii '}' then .trailingComma else .keyNotText)
    else .error .expectedCommaOrBrace

def endObject (bytes : Bytes) : Except Fault Bytes :=
  match skipSpace bytes with
  | [] => .error .endInObject
  | b :: rest =>
    if b = ascii '}' then .ok rest
    else .error (if b = ascii ',' then .trailingComma else .trailingCharacters)

/-- Adds a member to what is known of a record. -/
abbrev MemberReader (δ : Type) := String → δ → Reader δ

/-- The members of an object; every member takes a byte, which bounds their number. -/
def members {δ : Type} (member : MemberReader δ) : (budget : Nat) → (first : Bool) → δ → Reader δ
  | 0, _, _, _ => .error .endInObject
  | budget + 1, first, draft, bytes => do
    match ← nextMember first bytes with
    | none => return (draft, bytes)
    | some bytes =>
      let (name, rest) ← readText bytes
      let (draft, rest) ← member name draft rest
      members member budget false draft rest

/-- Reads the value of a member that has not been seen before. -/
def once {α : Type} (name : String) (seen : Option α) (value : Reader α) : Reader α := fun bytes =>
  if seen.isSome then .error (.duplicateField name) else skipColon bytes >>= value

/-- Passes over the value of a member of another name. -/
def ignored {δ : Type} (draft : δ) : Reader δ := fun bytes => do
  return (draft, ← skipValue (← skipColon bytes))

def required {α : Type} (name : String) (value : Option α) : Except Fault α :=
  match value with
  | some x => .ok x
  | none => .error (.missingField name)

/-- Reads the element of a record in list form that `before` others precede. -/
def element {α : Type} (name : String) (fields before : Nat) (value : Reader α) : Reader α :=
  fun bytes => do
    match ← nextElement (before == 0) bytes with
    | some bytes => value bytes
    | none => throw (.wrongLength before name fields)

/-- A record as an object, drafted member by member and then finished, or as a list. -/
def record {α δ : Type} (name : String) (blank : δ) (member : MemberReader δ)
    (finish : δ → Except Fault α) (inOrder : Reader α) : Reader α := fun bytes =>
  match skipSpace bytes with
  | [] => .error .endInValue
  | b :: rest =>
    if b = ascii '[' then do
      let (x, rest) ← inOrder rest
      return (x, ← endList rest)
    else if b = ascii '{' then do
      let (draft, rest) ← members member (rest.length + 1) true blank rest
      let x ← finish draft
      return (x, ← endObject rest)
    else .error (wrongType (.record name) b rest)

/-- A reader's value when nothing but space follows it. -/
def whole {α : Type} (value : Reader α) (bytes : Bytes) : Except Fault α := do
  let (x, rest) ← value bytes
  if skipSpace rest = [] then return x else throw .trailingCharacters

end PhraseVault.Json
