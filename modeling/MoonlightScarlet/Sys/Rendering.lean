import MoonlightScarlet.Sys.Vsnprintf
/-!
# What C prints

A format as a list of pieces, each with the argument that it takes, and the text that the
C standard asks for.
-/

namespace MoonlightScarlet.Sys.Vsnprintf

/-! ## Pieces of a format -/

/-- Decimal digits of a number that an `int` can hold; no digits stand for zero. -/
structure Number where
  digits : List Char
  isDigit : ∀ c ∈ digits, c.isDigit = true
  bounded : Nat.ofDigitChars 10 digits 0 ≤ intMax

def Number.value (number : Number) : Nat := Nat.ofDigitChars 10 number.digits 0

/-- A width that is not there has no digits; a leading zero would be a flag. -/
structure Width extends Number where
  lead : digits.head? ≠ some '0'

/-- The flags of a directive, of those that it may have. -/
structure FlagText (allowed : List Char) where
  chars : List Char
  mem : ∀ c ∈ chars, c ∈ allowed

/-- The argument of `%s`. -/
structure Text where
  address : BitVec 64
  chars : List Char
  address_ne : address ≠ 0
  plain : nul ∉ chars
  bounded : chars.length ≤ intMax

inductive Modifier
  | none
  | l
  | ll
  | z
  deriving DecidableEq, Repr

def Modifier.text : Modifier → List Char
  | .none => []
  | .l => ['l']
  | .ll => ['l', 'l']
  | .z => ['z']

/-- The width of the integers that a modifier announces. -/
def Modifier.bits : Modifier → Nat
  | .none => 32
  | .l => 64
  | .ll => 64
  | .z => 64

inductive Piece
  | literal (c : {c : Char // c ≠ '%' ∧ c ≠ nul})
  | percent
  | character (value : BitVec 32)
  | string (flags : FlagText ['-']) (width : Width) (precision : Option Number) (text : Text)
  | signed (conversion : {c : Char // c ∈ ['d', 'i']}) (flags : FlagText ['0', '+'])
      (width : Width) (modifier : Modifier) (value : BitVec modifier.bits)
  | unsigned (conversion : {c : Char // c ∈ ['u', 'x', 'X', 'o']}) (flags : FlagText ['0'])
      (width : Width) (modifier : Modifier) (value : BitVec modifier.bits)

def precisionText : Option Number → List Char
  | none => []
  | some precision => '.' :: precision.digits

/-- How a piece is written in a format. -/
def Piece.text : Piece → List Char
  | .literal c => [c.val]
  | .percent => ['%', '%']
  | .character _ => ['%', 'c']
  | .string flags width precision _ =>
      '%' :: (flags.chars ++ width.digits ++ precisionText precision ++ ['s'])
  | .signed conversion flags width modifier _ =>
      '%' :: (flags.chars ++ width.digits ++ modifier.text ++ [conversion.val])
  | .unsigned conversion flags width modifier _ =>
      '%' :: (flags.chars ++ width.digits ++ modifier.text ++ [conversion.val])

/-- The arguments that a piece takes. -/
def Piece.arguments : Piece → List Argument
  | .literal _ => []
  | .percent => []
  | .character value => [.integer 32 value]
  | .string _ _ _ text => [.pointer text.address text.chars]
  | .signed _ _ _ modifier value => [.integer modifier.bits value]
  | .unsigned _ _ _ modifier value => [.integer modifier.bits value]

/-! ## The text that they stand for -/

/-- What is missing from a field with so many characters. -/
def padding (fill : Char) (width : Width) (length : Nat) : List Char :=
  List.replicate (width.value - length) fill

/-- The characters of a string that a precision leaves. -/
def Text.shown (text : Text) : Option Number → List Char
  | none => text.chars
  | some precision => text.chars.take precision.value

def sign (plus : Bool) (value : Int) : List Char :=
  if value < 0 then ['-'] else if plus then ['+'] else []

/-- The digits of an unsigned conversion. -/
def unsignedDigits (conversion : Char) (value : Nat) : List Char :=
  if conversion = 'o' then Nat.toDigits 8 value
  else if conversion = 'u' then Nat.toDigits 10 value
  else if conversion = 'X' then (Nat.toDigits 16 value).map Char.toUpper
  else Nat.toDigits 16 value

def Piece.render : Piece → List Char
  | .literal c => [c.val]
  | .percent => ['%']
  | .character value => [Char.ofNat (value.toNat % 256)]
  | .string flags width precision text =>
      let shown := text.shown precision
      let padding := padding ' ' width shown.length
      if '-' ∈ flags.chars then shown ++ padding else padding ++ shown
  | .signed _ flags width _ value =>
      let sign := sign ('+' ∈ flags.chars) value.toInt
      let digits := Nat.toDigits 10 value.toInt.natAbs
      if '0' ∈ flags.chars then
        sign ++ padding '0' width (sign.length + digits.length) ++ digits
      else padding ' ' width (sign.length + digits.length) ++ sign ++ digits
  | .unsigned conversion flags width _ value =>
      let digits := unsignedDigits conversion.val value.toNat
      padding (if '0' ∈ flags.chars then '0' else ' ') width digits.length ++ digits

def formatText (pieces : List Piece) : List Char := pieces.flatMap Piece.text

def rendering (pieces : List Piece) : List Char := pieces.flatMap Piece.render

end MoonlightScarlet.Sys.Vsnprintf
