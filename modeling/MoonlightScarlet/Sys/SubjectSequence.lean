import Mathlib.Algebra.Group.Int.Defs
import MoonlightScarlet.Support.Numerals
import MoonlightScarlet.Sys.Strtol
/-!
# What C asks of strtol and strtoul

The C standard divides the string into white space, a subject sequence and a rest.  The
subject is the longest sequence behind the white space that has the form of an integer in
the base; its value is the number that it stands for, if the type can hold it.
-/

namespace MoonlightScarlet.Sys.Strtol

open Support.Numerals

/-- The letters stand for the digits from ten on. -/
def digit (c : Char) : Nat :=
  if c.isDigit then c.toNat - '0'.toNat
  else if c.isLower then c.toNat - 'a'.toNat + 10
  else c.toNat - 'A'.toNat + 10

def isDigit (base : Nat) (c : Char) : Bool := c.isAlphanum && decide (digit c < base)

/-- An integer without a sign, and the number that it stands for. -/
inductive Numeral (base : Nat) : List Char → Nat → Prop
  | digits {digits : List Char} (hbase : base ≠ 0) (hne : digits ≠ [])
      (hdigits : ∀ c ∈ digits, isDigit base c) : Numeral base digits (number digit base digits)
  | hexadecimal {x : Char} {digits : List Char} (hbase : base = 0 ∨ base = 16)
      (hx : x = 'x' ∨ x = 'X') (hne : digits ≠ []) (hdigits : ∀ c ∈ digits, isDigit 16 c) :
      Numeral base ('0' :: x :: digits) (number digit 16 digits)
  | octal {digits : List Char} (hbase : base = 0) (hdigits : ∀ c ∈ digits, isDigit 8 c) :
      Numeral base ('0' :: digits) (number digit 8 digits)
  | decimal {c : Char} {digits : List Char} (hbase : base = 0) (hc : c ≠ '0')
      (hdigits : ∀ d ∈ c :: digits, isDigit 10 d) :
      Numeral base (c :: digits) (number digit 10 (c :: digits))

/-- The sign is part of the subject sequence. -/
inductive Subject (base : Nat) : List Char → Bool → Nat → Prop
  | unsigned {text : List Char} {n : Nat} (h : Numeral base text n) : Subject base text false n
  | plus {text : List Char} {n : Nat} (h : Numeral base text n) :
      Subject base ('+' :: text) false n
  | minus {text : List Char} {n : Nat} (h : Numeral base text n) :
      Subject base ('-' :: text) true n

/-- The string has a subject sequence: its sign, its number and the text behind it. -/
def Reads (base : Nat) (string : List Char) (negative : Bool) (n : Nat) (rest : List Char) :
    Prop :=
  ∃ space subject, string = space ++ (subject ++ rest) ∧ (∀ c ∈ space, isSpace c) ∧
    Subject base subject negative n ∧
    Longest (fun text => ∃ negative n, Subject base text negative n) (subject ++ rest) subject

def NoSubject (base : Nat) (string : List Char) : Prop :=
  ∀ space subject rest negative n, string = space ++ (subject ++ rest) →
    (∀ c ∈ space, isSpace c) → ¬Subject base subject negative n

/-- A minus sign negates in the type of the result; `ULONG_MAX` stands for what the type
cannot hold. -/
def unsignedValue (negative : Bool) (n : Nat) : UInt64 :=
  if n < 2 ^ 64 then if negative then 0 - UInt64.ofNat n else UInt64.ofNat n
  else UInt64.ofNat (2 ^ 64 - 1)

/-- `LONG_MIN` and `LONG_MAX` stand for what the type cannot hold. -/
def signedValue (negative : Bool) (n : Nat) : Int64 :=
  let value : Int := if negative then -n else n
  Int64.ofInt (max (-2 ^ 63) (min value (2 ^ 63 - 1)))

/-- What C asks of a result and of `*end`. -/
def Conforms {α : Type} (value : Bool → Nat → α) (zero : α) (base : Nat) (string : List Char)
    (result : α × List Char) : Prop :=
  (∃ negative n, Reads base string negative n result.2 ∧ result.1 = value negative n) ∨
    NoSubject base string ∧ result = (zero, string)

def ConformsUnsigned (base : Nat) (string : List Char) (result : UInt64 × List Char) : Prop :=
  Conforms unsignedValue 0 base string result

/-- Undefined behaviour is never what C asks for. -/
def ConformsSigned (base : Nat) (string : List Char) (result : Option (Int64 × List Char)) :
    Prop := ∃ answer, result = some answer ∧ Conforms signedValue 0 base string answer

end MoonlightScarlet.Sys.Strtol
