import Mathlib.Data.List.Basic
/-!
# Text and bytes

The parts of the standard library and of the `hex` crate that the control plane
applies to the text of a response.
-/

namespace MoonlightScarlet.Control

abbrev Bytes := List UInt8

/-- `text.as_bytes()`. -/
def utf8 (text : String) : Bytes := text.toUTF8.data.toList

def endsWith (text ending : String) : Bool := ending.toList.isSuffixOf text.toList

def digitValue (digit : Char) : Option Nat :=
  if '0' ≤ digit ∧ digit ≤ '9' then some (digit.toNat - '0'.toNat) else none

def parseDigits : List Char → Nat → Option Nat
  | [], value => some value
  | digit :: digits, value =>
      (digitValue digit).bind fun d => parseDigits digits (value * 10 + d)

/-- `text.parse()` for an unsigned type with the values below `bound`: an optional
plus sign and at least one decimal digit. -/
def parseUnsigned (bound : Nat) (text : String) : Option Nat :=
  let digits :=
    match text.toList with
    | '+' :: digits => digits
    | digits => digits
  if digits.isEmpty then none
  else (parseDigits digits 0).filter fun value => value < bound

def parseU32 (text : String) : Option UInt32 :=
  (parseUnsigned UInt32.size text).map UInt32.ofNat

def parseU16 (text : String) : Option UInt16 :=
  (parseUnsigned UInt16.size text).map UInt16.ofNat

def hexDigit (nibble : Nat) : Char :=
  if nibble < 10 then Char.ofNat ('0'.toNat + nibble)
  else Char.ofNat ('a'.toNat + (nibble - 10))

/-- `hex::encode`. -/
def hexEncode (bytes : Bytes) : String :=
  String.ofList (bytes.flatMap fun byte =>
    [hexDigit (byte.toNat / 16), hexDigit (byte.toNat % 16)])

def hexValue (digit : Char) : Option Nat :=
  if '0' ≤ digit ∧ digit ≤ '9' then some (digit.toNat - '0'.toNat)
  else if 'a' ≤ digit ∧ digit ≤ 'f' then some (digit.toNat - 'a'.toNat + 10)
  else if 'A' ≤ digit ∧ digit ≤ 'F' then some (digit.toNat - 'A'.toNat + 10)
  else none

def hexDecodeDigits : List Char → Option Bytes
  | [] => some []
  | [_] => none
  | high :: low :: digits => do
      let high ← hexValue high
      let low ← hexValue low
      let bytes ← hexDecodeDigits digits
      return UInt8.ofNat (16 * high + low) :: bytes

/-- `hex::decode`, without the text of its error. -/
def hexDecode (text : String) : Option Bytes := hexDecodeDigits text.toList

end MoonlightScarlet.Control
