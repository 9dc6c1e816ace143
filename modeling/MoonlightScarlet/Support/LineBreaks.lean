import Mathlib.Data.List.Basic
/-!
# Greedy line breaks

Words are put on lines of a limited width, one column apart.  A word goes on the open line
if it fits there, and opens a new line otherwise.
-/

namespace Support.LineBreaks

variable {α : Type*} (width : α → Nat) (limit : Nat)

/-- The columns that the words of a line take. -/
def lineWidth : List α → Nat
  | [] => 0
  | word :: words => words.foldl (fun columns next => columns + 1 + width next) (width word)

/-- The lines of `words`, when the words of `line` already are on the first. -/
def breakFrom (line : List α) : List α → List (List α)
  | [] => [line]
  | word :: words =>
      if lineWidth width line + 1 + width word ≤ limit then breakFrom (line ++ [word]) words
      else line :: breakFrom [word] words

structure Broken (words : List α) (lines : List (List α)) : Prop where
  all : lines.flatten = words
  nonempty : ∀ line ∈ lines, line ≠ []
  fits : ∀ line ∈ lines, lineWidth width line ≤ limit ∨ ∃ word, line = [word]
  greedy : ∀ before line word next after, lines = before ++ line :: (word :: next) :: after →
    limit < lineWidth width line + 1 + width word

variable {width limit}

theorem lineWidth_append_singleton {line : List α} (h : line ≠ []) (word : α) :
    lineWidth width (line ++ [word]) = lineWidth width line + 1 + width word := by
  cases line with
  | nil => exact absurd rfl h
  | cons first line => rw [List.cons_append, lineWidth, List.foldl_append]; rfl

/-- The first line keeps the words that are on it. -/
theorem breakFrom_head (line words : List α) :
    ∃ more rest, breakFrom width limit line words = (line ++ more) :: rest := by
  induction words generalizing line with
  | nil => exact ⟨[], [], by rw [List.append_nil, breakFrom]⟩
  | cons word words ih =>
      rw [breakFrom]
      split
      · obtain ⟨more, rest, hlines⟩ := ih (line ++ [word])
        exact ⟨word :: more, rest, by rw [hlines, List.append_assoc, List.singleton_append]⟩
      · exact ⟨[], breakFrom width limit [word] words, by rw [List.append_nil]⟩

theorem broken_breakFrom {line : List α} (words : List α) (hline : line ≠ [])
    (hfits : lineWidth width line ≤ limit ∨ ∃ word, line = [word]) :
    Broken width limit (line ++ words) (breakFrom width limit line words) := by
  induction words generalizing line with
  | nil =>
      rw [breakFrom]
      constructor
      case all => rw [List.flatten_singleton, List.append_nil]
      case nonempty =>
        intro other hother
        rwa [List.mem_singleton.mp hother]
      case fits =>
        intro other hother
        rwa [List.mem_singleton.mp hother]
      case greedy =>
        intro before other word next after heq
        have hlength := congrArg List.length heq
        rw [List.length_append] at hlength
        simp only [List.length_cons, List.length_nil] at hlength
        omega
  | cons word words ih =>
      rw [breakFrom]
      split
      next hroom =>
        have hmore : lineWidth width (line ++ [word]) ≤ limit := by
          rw [lineWidth_append_singleton hline]
          exact hroom
        have hrest := ih (List.append_ne_nil_of_right_ne_nil line (List.cons_ne_nil word []))
          (.inl hmore)
        rwa [List.append_assoc, List.singleton_append] at hrest
      next hfull =>
        have hrest := ih (List.cons_ne_nil word []) (.inr ⟨word, rfl⟩)
        constructor
        case all => rw [List.flatten_cons, hrest.all, List.singleton_append]
        case nonempty =>
          intro other hother
          rcases List.mem_cons.mp hother with rfl | hother
          · exact hline
          · exact hrest.nonempty other hother
        case fits =>
          intro other hother
          rcases List.mem_cons.mp hother with rfl | hother
          · exact hfits
          · exact hrest.fits other hother
        case greedy =>
          intro before other first next after heq
          cases before with
          | nil =>
              obtain ⟨more, rest, hlines⟩ := @breakFrom_head α width limit [word] words
              obtain ⟨rfl, htail⟩ := List.cons.inj heq
              rw [hlines] at htail
              obtain ⟨rfl, -⟩ := List.cons.inj (List.cons.inj htail).1
              exact Nat.lt_of_not_le hfull
          | cons start before =>
              obtain ⟨-, htail⟩ := List.cons.inj heq
              exact hrest.greedy before other first next after htail

end Support.LineBreaks
