import PhraseVault.Number.Shortest
import PhraseVault.Text.Quoted

/-!
# What can be wrong with a written record
-/
namespace PhraseVault.Json

/-- What a reader looks for. -/
inductive Shape where
  | record (name : String)
  | text
  | list
  | int32
  | size
  deriving DecidableEq

def Shape.name : Shape → String
  | .record n => s!"struct {n}"
  | .text => "a string"
  | .list => "a sequence"
  | .int32 => "i32"
  | .size => "usize"

/-- What stands there instead. -/
inductive Found where
  | null
  | bool (b : Bool)
  | integer (n : Int)
  | real (x : Binary64)
  | text (s : String)
  | list
  | object
  deriving DecidableEq

def Found.name : Found → String
  | .null => "null"
  | .bool true => "boolean `true`"
  | .bool false => "boolean `false`"
  | .integer n => s!"integer `{n}`"
  | .real x => s!"floating point `{x.toText}`"
  | .text s => s!"string {Quoted.text s}"
  | .list => "sequence"
  | .object => "map"

inductive Fault where
  | endInValue
  | endInObject
  | endInList
  | endInText
  | expectedValue
  | misspeltWord
  | invalidNumber
  | numberOutOfRange
  | keyNotText
  | expectedColon
  | expectedCommaOrBrace
  | expectedCommaOrBracket
  | trailingComma
  | trailingCharacters
  | invalidEscape
  | controlCharacter
  | invalidCodePoint
  | loneSurrogate
  | unpairedSurrogate
  | missingField (name : String)
  | duplicateField (name : String)
  | wrongLength (count : Nat) (name : String) (fields : Nat)
  | wrongType (found : Found) (expected : Shape)
  | wrongNumber (n : Int) (expected : Shape)
  deriving DecidableEq

def Fault.message : Fault → String
  | .endInValue => "EOF while parsing a value"
  | .endInObject => "EOF while parsing an object"
  | .endInList => "EOF while parsing a list"
  | .endInText => "EOF while parsing a string"
  | .expectedValue => "expected value"
  | .misspeltWord => "expected ident"
  | .invalidNumber => "invalid number"
  | .numberOutOfRange => "number out of range"
  | .keyNotText => "key must be a string"
  | .expectedColon => "expected `:`"
  | .expectedCommaOrBrace => "expected `,` or `\x7d`"
  | .expectedCommaOrBracket => "expected `,` or `]`"
  | .trailingComma => "trailing comma"
  | .trailingCharacters => "trailing characters"
  | .invalidEscape => "invalid escape"
  | .controlCharacter => "control character (\\u0000-\\u001F) found while parsing a string"
  | .invalidCodePoint => "invalid unicode code point"
  | .loneSurrogate => "lone leading surrogate in hex escape"
  | .unpairedSurrogate => "unexpected end of hex escape"
  | .missingField f => s!"missing field `{f}`"
  | .duplicateField f => s!"duplicate field `{f}`"
  | .wrongLength n name k => s!"invalid length {n}, expected struct {name} with {k} elements"
  | .wrongType found expected => s!"invalid type: {found.name}, expected {expected.name}"
  | .wrongNumber n expected => s!"invalid value: integer `{n}`, expected {expected.name}"

end PhraseVault.Json
