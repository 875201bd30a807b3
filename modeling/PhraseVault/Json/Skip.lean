import PhraseVault.Json.Number

/-!
# Passing over values nobody asked for

Lists and objects part way through are kept on a stack, so a value may be nested to any depth.
-/
namespace PhraseVault.Json

/-- Reads the rest of a word whose first letter is known. -/
def readWord : (expected : List Char) → Bytes → Except Fault Bytes
  | [], rest => .ok rest
  | _ :: _, [] => .error .endInValue
  | c :: cs, b :: rest => if b = ascii c then readWord cs rest else .error .misspeltWord

inductive Frame where
  | list
  | object
  deriving DecidableEq

def Frame.close : Frame → UInt8
  | .list => ascii ']'
  | .object => ascii '}'

def Frame.endFault : Frame → Fault
  | .list => .endInList
  | .object => .endInObject

def Frame.commaFault : Frame → Fault
  | .list => .expectedCommaOrBracket
  | .object => .expectedCommaOrBrace

/-- What may come next inside the innermost frame. -/
inductive Expecting where
  | value
  /-- The first member, or the end of an empty frame. -/
  | first
  | comma
  | key

/-- Passes over a value that opens no frame. -/
def skipScalar (b : UInt8) (rest : Bytes) : Except Fault Bytes :=
  if b = ascii 'n' then readWord ['u', 'l', 'l'] rest
  else if b = ascii 't' then readWord ['r', 'u', 'e'] rest
  else if b = ascii 'f' then readWord ['a', 'l', 's', 'e'] rest
  else if b = ascii '-' then skipNumber rest
  else if isDigit b then skipNumber (b :: rest)
  else if b = ascii '"' then skipText rest
  else .error .expectedValue

def skipColon (b : Bytes) : Except Fault Bytes :=
  match skipSpace b with
  | [] => .error .endInObject
  | b :: rest => if b = ascii ':' then .ok rest else .error .expectedColon

def Frame.member : Frame → Expecting
  | .list => .value
  | .object => .key

def skipFrom : (budget : Nat) → Expecting → List Frame → Bytes → Except Fault Bytes
  | 0, _, _, _ => .error .endInValue
  | budget + 1, .value, stack, bytes =>
    match skipSpace bytes with
    | [] => .error .endInValue
    | b :: rest =>
      if b = ascii '[' then skipFrom budget .first (.list :: stack) rest
      else if b = ascii '{' then skipFrom budget .first (.object :: stack) rest
      else do
        let rest ← skipScalar b rest
        skipFrom budget .comma stack rest
  | _ + 1, .comma, [], bytes => .ok bytes
  | budget + 1, .comma, f :: stack, bytes =>
    match skipSpace bytes with
    | [] => .error f.endFault
    | b :: rest =>
      if b = ascii ',' then skipFrom budget f.member (f :: stack) rest
      else if b = f.close then skipFrom budget .comma stack rest
      else .error f.commaFault
  | budget + 1, .first, f :: stack, bytes =>
    match skipSpace bytes with
    | [] => .error f.endFault
    | b :: rest =>
      if b = f.close then skipFrom budget .comma stack rest
      else skipFrom budget f.member (f :: stack) (b :: rest)
  | _ + 1, .first, [], bytes => .ok bytes
  | budget + 1, .key, stack, bytes =>
    match skipSpace bytes with
    | [] => .error .endInObject
    | b :: rest =>
      if b = ascii '"' then do
        let rest ← skipText rest
        let rest ← skipColon rest
        skipFrom budget .value stack rest
      else .error .keyNotText

/-- Passes over one value. A step takes a byte, or opens the frame just read, or is the last. -/
def skipValue (b : Bytes) : Except Fault Bytes := skipFrom (2 * b.length + 2) .value [] b

end PhraseVault.Json
