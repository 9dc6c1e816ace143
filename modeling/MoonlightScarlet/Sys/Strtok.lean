import MoonlightScarlet.Sys.Vsnprintf
/-!
# strtok_r

A buffer is a list of bytes and a pointer into it is an index; a read outside of the buffer
is `none`.  The set of delimiters is the characters of a string before its NUL.
-/

namespace MoonlightScarlet.Sys.Strtok

open Vsnprintf

/-- Where a character stands in a string; the NUL at its end is found too. -/
def strchr : List Char → Char → Option Nat
  | [], character => if nul = character then some 0 else none
  | c :: string, character =>
      if c = character then some 0 else (strchr string character).map (· + 1)

def isDelimiter (character : Char) (delimiters : List Char) : Bool :=
  (strchr delimiters character).isSome

/-- The steps of `while (*cursor != '\\0' && keep(*cursor)) cursor++`. -/
def scanWhile (keep : Char → Bool) : List Char → Option Nat
  | [] => none
  | c :: bytes => if c ≠ nul ∧ keep c then (scanWhile keep bytes).map (· + 1) else some 0

/-- The buffer and `*state`. -/
structure Tokenizer where
  buffer : List Char
  state : Nat
  deriving DecidableEq, Repr

/-- The start of a token or `NULL`, and what the call leaves behind. -/
def strtokR (t : Tokenizer) (string : Option Nat) (delimiters : List Char) :
    Option (Option Nat × Tokenizer) := do
  let cursor := string.getD t.state
  let skipped ← scanWhile (isDelimiter · delimiters) (t.buffer.drop cursor)
  let token := cursor + skipped
  let character ← t.buffer[token]?
  if character = nul then return (none, { t with state := token })
  else
    let length ← scanWhile (fun c => !isDelimiter c delimiters) (t.buffer.drop token)
    let cursor := token + length
    let character ← t.buffer[cursor]?
    if character = nul then return (some token, { t with state := cursor })
    else return (some token, ⟨t.buffer.set cursor nul, cursor + 1⟩)

/-- The first call gets the string and each later one `NULL`, with a set of delimiters
for each. -/
def calls (t : Tokenizer) (string : Option Nat) :
    List (List Char) → Option (List (Option Nat) × Tokenizer)
  | [] => some ([], t)
  | delimiters :: sets => do
      let (result, t) ← strtokR t string delimiters
      let (results, t) ← calls t none sets
      return (result :: results, t)

end MoonlightScarlet.Sys.Strtok
