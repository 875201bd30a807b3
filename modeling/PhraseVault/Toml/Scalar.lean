import PhraseVault.Number.Binary64
import PhraseVault.Text.Digit

/-!
# Values that are neither text nor made of other values

Truth values, numbers, dates and times are told by their spelling alone: no setting holds one.
-/
namespace PhraseVault.Toml

def isOctalDigit (c : Char) : Bool := '0' ≤ c && c ≤ '7'

def isBinaryDigit (c : Char) : Bool := c = '0' || c = '1'

/-- Digits with single underscores between them; `free` if an underscore may come next. -/
def grouped (digit : Char → Bool) : (free : Bool) → List Char → Bool
  | free, [] => free
  | free, c :: cs =>
    if digit c then grouped digit true cs else free && c = '_' && grouped digit false cs

def isGrouped (digit : Char → Bool) (cs : List Char) : Bool := grouped digit false cs

def value (base : Nat) (cs : List Char) : Nat := numberOf base (cs.filter (· ≠ '_'))

/-- Grouped digits without a leading zero. -/
def isWhole (cs : List Char) : Bool :=
  isGrouped isDigit cs && (cs.head? ≠ some '0' || cs.length = 1)

def splitSign : List Char → Option Char × List Char
  | '+' :: cs => (some '+', cs)
  | '-' :: cs => (some '-', cs)
  | cs => (none, cs)

/-- Integers have 64 bits, one of them for the sign. -/
def integerLimit : Nat := 0x8000000000000000

def isBased (base : Nat) (digit : Char → Bool) (cs : List Char) : Bool :=
  isGrouped digit cs && value base cs < integerLimit

def isInteger (cs : List Char) : Bool :=
  match cs with
  | '0' :: 'x' :: ds => isBased 16 isHexDigit ds
  | '0' :: 'o' :: ds => isBased 8 isOctalDigit ds
  | '0' :: 'b' :: ds => isBased 2 isBinaryDigit ds
  | _ =>
    let (sign, ds) := splitSign cs
    isWhole ds && value 10 ds < integerLimit + if sign = some '-' then 1 else 0

/-- Whether a decimal is too large for a floating point number: `digits * 10 ^ exponent`, where
`places` digits count. -/
def overflows (digits places : Nat) (exponent : Int) : Bool :=
  let magnitude := (places : Int) + exponent
  if digits = 0 || magnitude < 300 then false
  else if 320 < magnitude then true
  else
    let num := digits * Nat.pow 10 exponent.toNat
    (Binary64.ofRatio? num (Nat.pow 10 (-exponent).toNat)).isNone

def isExponentMark (c : Char) : Bool := c = 'e' || c = 'E'

def dropLeadingZeros (cs : List Char) : List Char := (cs.filter (· ≠ '_')).dropWhile (· = '0')

/-- A fraction, an exponent or both follow the whole part. Only a positive number is refused for
being too large. -/
def isFloat (cs : List Char) : Bool :=
  let (sign, cs) := splitSign cs
  if cs = ['i', 'n', 'f'] || cs = ['n', 'a', 'n'] then true
  else
    let mantissa := cs.takeWhile (!isExponentMark ·)
    let power := cs.dropWhile (!isExponentMark ·)
    let whole := mantissa.takeWhile (· ≠ '.')
    let fraction := mantissa.dropWhile (· ≠ '.')
    let (powerSign, powerDigits) := splitSign power.tail
    let spelled := isWhole whole && (fraction = [] || isGrouped isDigit fraction.tail) &&
      (power = [] || isGrouped isDigit powerDigits) && (fraction ≠ [] || power ≠ [])
    let digits := dropLeadingZeros (whole ++ fraction.tail)
    let places := (fraction.tail.filter (· ≠ '_')).length
    let n : Int := value 10 powerDigits
    let exponent := (if powerSign = some '-' then -n else n) - places
    spelled && (sign = some '-' || !overflows (value 10 digits) digits.length exponent)

/-- A number of exactly so many digits. -/
def fixed? (width : Nat) (cs : List Char) : Option (Nat × List Char) :=
  let ds := cs.take width
  if ds.length = width ∧ ds.all isDigit then some (value 10 ds, cs.drop width) else none

def expect? (c : Char) : List Char → Option (List Char)
  | d :: cs => if d = c then some cs else none
  | [] => none

def isLeapYear (y : Nat) : Bool := y % 4 = 0 && (y % 100 ≠ 0 || y % 400 = 0)

def daysIn (year month : Nat) : Nat :=
  if month = 2 then if isLeapYear year then 29 else 28
  else if month = 4 || month = 6 || month = 9 || month = 11 then 30
  else 31

/-- Reads a calendar date. -/
def date? (cs : List Char) : Option (List Char) := do
  let (year, cs) ← fixed? 4 cs
  let cs ← expect? '-' cs
  let (month, cs) ← fixed? 2 cs
  let cs ← expect? '-' cs
  let (day, cs) ← fixed? 2 cs
  if 1 ≤ month ∧ month ≤ 12 ∧ 1 ≤ day ∧ day ≤ daysIn year month then some cs else none

/-- Reads hours and minutes. -/
def clock? (cs : List Char) : Option (List Char) := do
  let (hour, cs) ← fixed? 2 cs
  let cs ← expect? ':' cs
  let (minute, cs) ← fixed? 2 cs
  if hour ≤ 23 ∧ minute ≤ 59 then some cs else none

/-- Reads a time of day, which may have a leap second and a fraction. -/
def time? (cs : List Char) : Option (List Char) := do
  let cs ← clock? cs
  let cs ← expect? ':' cs
  let (second, cs) ← fixed? 2 cs
  if 60 < second then none
  else match cs with
    | '.' :: cs => if (cs.takeWhile isDigit).isEmpty then none else some (cs.dropWhile isDigit)
    | _ => some cs

/-- Reads the rest of a date's time: an offset or nothing. -/
def isOffset : List Char → Bool
  | [] => true
  | ['Z'] => true
  | ['z'] => true
  | '+' :: cs => clock? cs = some []
  | '-' :: cs => clock? cs = some []
  | _ => false

def isTimeMark (c : Char) : Bool := c = 'T' || c = 't' || c = ' '

def isDate (cs : List Char) : Bool := date? cs = some []

def isMoment (cs : List Char) : Bool :=
  match date? cs with
  | some [] => true
  | some (mark :: cs) => isTimeMark mark && (time? cs).any isOffset
  | none => time? cs = some []

def isTruth (cs : List Char) : Bool := cs = "true".toList || cs = "false".toList

def isScalar (cs : List Char) : Bool := isTruth cs || isInteger cs || isFloat cs || isMoment cs

end PhraseVault.Toml
