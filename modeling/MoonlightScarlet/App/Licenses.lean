import MoonlightScarlet.Control.Endpoint
/-!
# Text of the licenses

`wrap_text` breaks the lines of a license for the viewport.
-/

namespace MoonlightScarlet.App.Licenses

open Control

/-- `str::split_inclusive('\n')`. -/
def splitInclusive : List Char → List (List Char)
  | [] => []
  | c :: rest =>
      if c = '\n' then [c] :: splitInclusive rest
      else
        match splitInclusive rest with
        | [] => [[c]]
        | piece :: pieces => (c :: piece) :: pieces

/-- A line without its ending, which is `\n` or `\r\n`. -/
def stripEnding (piece : List Char) : List Char :=
  match piece.reverse with
  | '\n' :: '\r' :: line => line.reverse
  | '\n' :: line => line.reverse
  | _ => piece

/-- `str::lines`. -/
def lines (text : String) : List String :=
  (splitInclusive text.toList).map fun piece => String.ofList (stripEnding piece)

/-- `str::split_whitespace`. -/
def splitWhitespace (line : String) : List String :=
  ((line.toList.splitOnP isWhitespace).filter fun piece => !piece.isEmpty).map String.ofList

/-- Body of the loop over the words; the state is `output` and `current`. -/
def wrapWord (maximumCharacters : Nat) : List String × String → String → List String × String
  | (output, current), word =>
      let separator := if current.isEmpty then 0 else 1
      let (output, current) :=
        if !current.isEmpty && current.length + separator + word.length > maximumCharacters then
          (output ++ [current], "")
        else (output, current)
      let current := if current.isEmpty then current else current.push ' '
      (output, current ++ word)

/-- Body of the loop over the lines. -/
def wrapLine (maximumCharacters : Nat) (output : List String) (line : String) : List String :=
  if (trim line).isEmpty then output ++ [""]
  else
    let (output, current) :=
      (splitWhitespace line).foldl (wrapWord maximumCharacters) (output, "")
    output ++ [current]

def wrapText (text : String) (maximumCharacters : Nat) : List String :=
  (lines text).foldl (wrapLine (max maximumCharacters 1)) []

example : wrapText "Permission is\r\n \nhereby granted" 10 =
    ["Permission", "is", "", "hereby", "granted"] := by decide

end MoonlightScarlet.App.Licenses
