import Mathlib.Algebra.Group.Int.Defs
import MoonlightScarlet.Support.Memory
/-!
# vsnprintf

The format interpreter of the C library layer on a target where `int` has 32 bits, and
`long` and pointers have 64.  A string is its characters before the NUL.  Undefined
behaviour, such as a signed overflow or an argument of another type, is `none`.
-/

namespace MoonlightScarlet.Sys.Vsnprintf

open Support.Memory

def nul : Char := Char.ofNat 0

def intMax : Nat := 2 ^ 31 - 1

/-- The result of signed arithmetic on `int`. -/
def int (n : Int) : Option Int := if -2 ^ 31 ≤ n ∧ n < 2 ^ 31 then some n else none

/-- `(int)` of a `size_t`. -/
def toInt (n : Nat) : Int := Int.bmod n (2 ^ 32)

/-! ## Output -/

structure OutputBuffer where
  bytes : Mem Char
  capacity : UInt64
  position : UInt64
  total : UInt64

def outputCharacter (output : OutputBuffer) (character : Char) : OutputBuffer where
  bytes :=
    if output.capacity > 0 ∧ output.position + 1 < output.capacity then
      write output.bytes output.position.toNat [character]
    else output.bytes
  capacity := output.capacity
  position := output.position + 1
  total := output.total + 1

/-- `while (count-- > 0)`, where only the last decrement can leave the type. -/
def outputRepeat (output : OutputBuffer) (character : Char) (count : Int) :
    Option OutputBuffer :=
  if 0 < count then outputRepeat (outputCharacter output character) character (count - 1)
  else (int (count - 1)).map fun _ => output
termination_by count.toNat

def outputStringFrom (maximum : Int) : Int → OutputBuffer → List Char → Option OutputBuffer
  | _, output, [] => some output
  | count, output, character :: string =>
      if maximum < 0 ∨ count < maximum then do
        let count ← int (count + 1)
        outputStringFrom maximum count (outputCharacter output character) string
      else some output

def outputString (output : OutputBuffer) (string : List Char) (maximum : Int) :
    Option OutputBuffer := outputStringFrom maximum 0 output string

/-- The loop ends because the base is at least two. -/
def unsignedLength (value base : Nat) : Nat :=
  if 1 < base ∧ base ≤ value then unsignedLength (value / base) base + 1 else 1
termination_by value
decreasing_by exact Nat.div_lt_self (by omega) (by omega)

def alphabet (uppercase : Bool) : List Char :=
  if uppercase then
    ['0', '1', '2', '3', '4', '5', '6', '7', '8', '9', 'A', 'B', 'C', 'D', 'E', 'F']
  else ['0', '1', '2', '3', '4', '5', '6', '7', '8', '9', 'a', 'b', 'c', 'd', 'e', 'f']

/-- `digits[--index] = alphabet[value % base]`, with the digits from `index` on. -/
def storeDigits (base : Nat) (uppercase : Bool) : Nat → Nat → List Char → Option (List Char)
  | 0, _, digits => some digits
  | index + 1, value, digits => do
      let digit ← (alphabet uppercase)[value % base]?
      storeDigits base uppercase index (value / base) (digit :: digits)

/-- There is room for 32 digits. -/
def outputUnsigned (output : OutputBuffer) (value base : Nat) (uppercase : Bool) (width : Int)
    (zeroPad : Bool) : Option OutputBuffer := do
  let length := unsignedLength value base
  if 32 < length then none
  else
    let digits ← storeDigits base uppercase length value []
    let padding ← int (width - length)
    let output ← outputRepeat output (if zeroPad then '0' else ' ') padding
    return digits.foldl outputCharacter output

/-! ## Arguments -/

/-- A variadic argument: an integer by its width, a pointer with the string that stands
there, or a floating-point number. -/
inductive Argument
  | integer (bits : Nat) (value : BitVec bits)
  | pointer (address : BitVec 64) (string : List Char)
  | double

/-- `va_arg` of an integer type. -/
def vaInteger (bits : Nat) : List Argument → Option (BitVec bits × List Argument)
  | .integer other value :: arguments =>
      if h : other = bits then some (value.cast h, arguments) else none
  | _ => none

/-- `va_arg` of a pointer type. -/
def vaPointer : List Argument → Option (BitVec 64 × List Char × List Argument)
  | .pointer address string :: arguments => some (address, string, arguments)
  | _ => none

/-- `va_arg` of `double`. -/
def vaDouble : List Argument → Option (List Argument)
  | .double :: arguments => some arguments
  | _ => none

/-! ## Directives -/

structure Flags where
  zeroPad : Bool := false
  leftAlign : Bool := false
  plus : Bool := false
  deriving DecidableEq, Repr

def readFlags (flags : Flags) : List Char → Flags × List Char
  | [] => (flags, [])
  | character :: format =>
      if character = '0' then readFlags { flags with zeroPad := true } format
      else if character = '-' then readFlags { flags with leftAlign := true } format
      else if character = '+' then readFlags { flags with plus := true } format
      else if character = ' ' ∨ character = '#' then readFlags flags format
      else (flags, character :: format)

def readNumber (number : Int) : List Char → Option (Int × List Char)
  | [] => some (number, [])
  | character :: format =>
      if character.isDigit then do
        let number ← int (number * 10 + (character.toNat - '0'.toNat : Nat))
        readNumber number format
      else some (number, character :: format)

/-- A width, or a precision behind its point: an argument or a number. -/
def readWidth (format : List Char) (arguments : List Argument) :
    Option (Int × List Char × List Argument) :=
  match format with
  | '*' :: format => do
      let (width, arguments) ← vaInteger 32 arguments
      return (width.toInt, format, arguments)
  | format => do
      let (width, format) ← readNumber 0 format
      return (width, format, arguments)

def readPrecision (format : List Char) (arguments : List Argument) :
    Option (Int × List Char × List Argument) :=
  match format with
  | '.' :: format => readWidth format arguments
  | format => some (-1, format, arguments)

def readModifier : List Char → Nat × List Char
  | 'l' :: 'l' :: format => (2, format)
  | 'l' :: format => (1, format)
  | 'z' :: format => (2, format)
  | 't' :: format => (2, format)
  | 'j' :: format => (2, format)
  | 'h' :: 'h' :: format => (0, format)
  | 'h' :: format => (0, format)
  | format => (0, format)

/-- The width of `long long`, `long` and `int`, by the length modifier. -/
def integerBits : Nat → Nat
  | 2 => 64
  | 1 => 64
  | _ => 32

def convertString (output : OutputBuffer) (flags : Flags) (width precision : Int)
    (string : List Char) : Option OutputBuffer := do
  let length := toInt string.length
  let textLength := if precision ≥ 0 ∧ length > precision then precision else length
  let padding ← int (width - textLength)
  let output ← if flags.leftAlign then some output else outputRepeat output ' ' padding
  let output ← outputString output string textLength
  if flags.leftAlign then outputRepeat output ' ' padding else some output

def convertSigned (output : OutputBuffer) (flags : Flags) (width signedValue : Int) :
    Option OutputBuffer := do
  let negative := decide (signedValue < 0)
  let magnitude := if negative then (-(signedValue + 1)).toNat + 1 else signedValue.toNat
  let signLength : Int := if negative || flags.plus then 1 else 0
  let numberLength : Int := unsignedLength magnitude 10
  let output ←
    if flags.zeroPad then some output
    else do
      let padding ← int (width - numberLength)
      let padding ← int (padding - signLength)
      outputRepeat output ' ' padding
  let output :=
    if negative then outputCharacter output '-'
    else if flags.plus then outputCharacter output '+'
    else output
  if flags.zeroPad then do
    let width ← int (width - signLength)
    outputUnsigned output magnitude 10 false width true
  else outputUnsigned output magnitude 10 false numberLength false

/-- Print the argument of a directive. -/
def convert (output : OutputBuffer) (flags : Flags) (width precision : Int) (modifier : Nat)
    (conversion : Char) (arguments : List Argument) : Option (OutputBuffer × List Argument) := do
  if conversion = 's' then
    let (address, string, arguments) ← vaPointer arguments
    let string := if address = 0 then ['(', 'n', 'u', 'l', 'l', ')'] else string
    let output ← convertString output flags width precision string
    return (output, arguments)
  else if conversion = 'c' then
    let (value, arguments) ← vaInteger 32 arguments
    return (outputCharacter output (Char.ofNat (value.toNat % 256)), arguments)
  else if conversion = 'd' ∨ conversion = 'i' then
    let (value, arguments) ← vaInteger (integerBits modifier) arguments
    let output ← convertSigned output flags width value.toInt
    return (output, arguments)
  else if conversion = 'u' ∨ conversion = 'x' ∨ conversion = 'X' ∨ conversion = 'o' then
    let (value, arguments) ← vaInteger (integerBits modifier) arguments
    let base := if conversion = 'o' then 8 else if conversion = 'u' then 10 else 16
    let output ←
      outputUnsigned output value.toNat base (conversion = 'X') width flags.zeroPad
    return (output, arguments)
  else if conversion = 'p' then
    let (address, _, arguments) ← vaPointer arguments
    let output ← outputString output ['0', 'x'] (-1)
    let output ← outputUnsigned output address.toNat 16 false 16 true
    return (output, arguments)
  else if conversion = 'f' ∨ conversion = 'F' ∨ conversion = 'e' ∨ conversion = 'g' then
    let arguments ← vaDouble arguments
    let output ← outputString output ['<', 'f', 'l', 'o', 'a', 't', '>'] (-1)
    return (output, arguments)
  else return (outputCharacter (outputCharacter output '%') conversion, arguments)

structure Machine where
  format : List Char
  arguments : List Argument
  output : OutputBuffer

/-- The directive behind a percent sign; one that ends with the format prints nothing. -/
def directive (m : Machine) : Option Machine := do
  let (flags, format) := readFlags {} m.format
  let (width, format, arguments) ← readWidth format m.arguments
  let (precision, format, arguments) ← readPrecision format arguments
  let (modifier, format) := readModifier format
  match format with
  | [] => return ⟨[], arguments, m.output⟩
  | conversion :: format =>
      let (output, arguments) ←
        convert m.output flags width precision modifier conversion arguments
      return ⟨format, arguments, output⟩

/-- One turn of the loop over the format. -/
def formatStep (m : Machine) : Option Machine :=
  match m.format with
  | [] => none
  | '%' :: '%' :: format => some { m with format, output := outputCharacter m.output '%' }
  | '%' :: format => directive { m with format }
  | character :: format => some { m with format, output := outputCharacter m.output character }

/-- Every turn takes a character of the format at least. -/
def formatLoop : Nat → Machine → Option Machine
  | 0, m => if m.format = [] then some m else none
  | turns + 1, m => if m.format = [] then some m else (formatStep m).bind (formatLoop turns)

/-- What `vsnprintf` returns, and the memory from `buffer` on. -/
def vsnprintf (buffer : Mem Char) (length : UInt64) (format : List Char)
    (arguments : List Argument) : Option (Int × Mem Char) := do
  let m ← formatLoop format.length ⟨format, arguments, ⟨buffer, length, 0, 0⟩⟩
  let output := m.output
  let bytes :=
    if length > 0 then
      let terminator := if output.position < length then output.position else length - 1
      write output.bytes terminator.toNat [nul]
    else output.bytes
  return (toInt output.total.toNat, bytes)

end MoonlightScarlet.Sys.Vsnprintf
