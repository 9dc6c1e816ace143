import MoonlightScarlet.Sys.Vsnprintf
/-!
# strtol, strtoul and atoi

A string is its characters before the NUL, and a pointer into it is the part of the string
from there on, so two pointers are equal when the parts are.  `int` has 32 bits and `long`
64; a base is not negative.  Undefined behaviour is `none`.
-/

namespace MoonlightScarlet.Sys.Strtol

def digitValue (character : Char) : Int :=
  if '0' ≤ character ∧ character ≤ '9' then character.toNat - '0'.toNat
  else if 'a' ≤ character ∧ character ≤ 'z' then character.toNat - 'a'.toNat + 10
  else if 'A' ≤ character ∧ character ≤ 'Z' then character.toNat - 'A'.toNat + 10
  else -1

def isSpace (character : Char) : Bool :=
  character = ' ' || character = '\t' || character = '\n' || character = '\r' ||
    character = '\x0c' || character = '\x0b'

def skipSpace : List Char → List Char
  | [] => []
  | character :: value => if isSpace character then skipSpace value else character :: value

/-- The loop over the digits, where both the product and the sum can wrap. -/
def readDigits (base : Nat) : UInt64 → List Char → UInt64 × List Char
  | result, [] => (result, [])
  | result, character :: value =>
      let digit := digitValue character
      if digit ≥ 0 ∧ digit < base then
        readDigits base (result * UInt64.ofNat base + UInt64.ofNat digit.toNat) value
      else (result, character :: value)

/-- `value[0] == '0' && (value[1] == 'x' || value[1] == 'X')` -/
def startsHex : List Char → Bool
  | '0' :: 'x' :: _ => true
  | '0' :: 'X' :: _ => true
  | _ => false

/-- The base, and the text behind its prefix. -/
def readBase (base : Nat) (value : List Char) : Nat × List Char :=
  if (base = 0 ∨ base = 16) ∧ startsHex value then (16, value.drop 2)
  else if base = 0 then (if value.head? = some '0' then 8 else 10, value)
  else (base, value)

/-- Whether there is a minus sign, and the text behind the sign. -/
def readSign : List Char → Bool × List Char
  | '+' :: value => (false, value)
  | '-' :: value => (true, value)
  | value => (false, value)

/-- The result, and where `*end` points. -/
def strtoul (value : List Char) (base : Nat) : UInt64 × List Char :=
  let start := value
  let (negative, value) := readSign (skipSpace value)
  let (base, digits) := readBase base value
  let (result, value) := readDigits base 0 digits
  (if negative then 0 - result else result, if value = digits then start else value)

/-- The negation of the least `long` is undefined. -/
def strtol (value : List Char) (base : Nat) : Option (Int64 × List Char) :=
  let (negative, cursor) := readSign (skipSpace value)
  let (magnitude, parsedEnd) := strtoul cursor base
  let stop := if parsedEnd = cursor then value else parsedEnd
  let result := magnitude.toInt64
  if negative then if result = Int64.minValue then none else some (-result, stop)
  else some (result, stop)

def atoi (value : List Char) : Option Int32 :=
  (strtol value 10).map fun (result, _) => result.toInt32

end MoonlightScarlet.Sys.Strtol
