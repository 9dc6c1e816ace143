import MoonlightScarlet.Support.Memory
import MoonlightScarlet.Sys.Vsnprintf
/-!
# string.h

The copies of the C library work on a memory of bytes; a range of it does not wrap around.
The strings of `strstr` are given from a pointer on, with their NUL, and a read behind the
last character that is given is `none`.
-/

namespace MoonlightScarlet.Sys.Strings

open Support.Memory Vsnprintf

/-! ## Copies -/

/-- `out[index] = in[index]` -/
def copyByte (out source : Nat) (m : Mem UInt8) (index : Nat) : Mem UInt8 :=
  Function.update m (out + index) (m (source + index))

/-- The loop that counts up. -/
def copyUp (out source length : Nat) (m : Mem UInt8) : Mem UInt8 :=
  (List.range length).foldl (copyByte out source) m

/-- The loop that counts `length` down. -/
def copyDown (out source : Nat) : Nat → Mem UInt8 → Mem UInt8
  | 0, m => m
  | length + 1, m => copyDown out source length (copyByte out source m length)

def memcpy (m : Mem UInt8) (destination source length : Nat) : Nat × Mem UInt8 :=
  (destination, copyUp destination source length m)

/-- The returned pointer, and the memory afterwards. -/
def memmove (m : Mem UInt8) (destination source length : Nat) : Nat × Mem UInt8 :=
  if destination < source then (destination, copyUp destination source length m)
  else if destination > source then (destination, copyDown destination source length m)
  else (destination, m)

/-! ## Substrings -/

def strlen : List Char → Option Nat
  | [] => none
  | character :: string => if character = nul then some 0 else (strlen string).map (· + 1)

def strncmp : List Char → List Char → Nat → Option Int
  | _, _, 0 => some 0
  | a :: left, b :: right, length + 1 =>
      if a ≠ b ∨ a = nul then some (a.toNat - b.toNat) else strncmp left right length
  | _, _, _ + 1 => none

/-- The loop of `strstr`: how far behind the pointer the needle was found. -/
def search (needle : List Char) (needleLength : Nat) : List Char → Option (Option Nat)
  | [] => none
  | character :: haystack =>
      if character = nul then some none
      else do
        let order ← strncmp (character :: haystack) needle needleLength
        if order = 0 then return some 0
        else
          let found ← search needle needleLength haystack
          return found.map (· + 1)

/-- The position in the haystack, or `NULL`. -/
def strstr (haystack needle : List Char) : Option (Option Nat) := do
  let needleLength ← strlen needle
  if needleLength = 0 then return some 0 else search needle needleLength haystack

end MoonlightScarlet.Sys.Strings
