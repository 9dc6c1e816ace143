import Mathlib.Data.List.Induction
import Mathlib.Data.List.TakeWhile
import MoonlightScarlet.Support.LineBreaks
import MoonlightScarlet.App.Licenses
/-!
# The wrapped lines

The loop over the words keeps `current` as the words of the open line with a space between
them, so it makes the line breaks of `Support.LineBreaks`.
-/

namespace MoonlightScarlet.App.Licenses

open Control Support.LineBreaks

/-! ## Words -/

section Pieces

variable {p : Char → Bool} {text : List Char}

theorem mem_splitOnP {c : Char} (hc : c ∈ text) (hp : p c = false) :
    ∃ piece ∈ text.splitOnP p, c ∈ piece := by
  induction text with
  | nil => cases hc
  | cons d text ih =>
      rw [List.splitOnP_cons_eq_if_modifyHead]
      obtain ⟨first, rest, hpieces⟩ := List.exists_cons_of_ne_nil (List.splitOnP_ne_nil p text)
      rw [hpieces] at ih ⊢
      rcases List.mem_cons.mp hc with rfl | hc
      · rw [if_neg (by rw [hp]; exact Bool.false_ne_true)]
        exact ⟨c :: first, List.mem_cons_self, List.mem_cons_self⟩
      · obtain ⟨piece, hpiece, hmem⟩ := ih hc
        split
        · exact ⟨piece, List.mem_cons_of_mem _ hpiece, hmem⟩
        · rcases List.mem_cons.mp hpiece with rfl | hpiece
          · exact ⟨d :: piece, List.mem_cons_self, List.mem_cons_of_mem _ hmem⟩
          · exact ⟨piece, List.mem_cons_of_mem _ hpiece, hmem⟩

theorem splitOnP_plain {piece : List Char} (hpiece : piece ∈ text.splitOnP p) :
    ∀ c ∈ piece, p c = false := by
  induction text generalizing piece with
  | nil =>
      rw [List.splitOnP_nil, List.mem_singleton] at hpiece
      rw [hpiece]
      exact nofun
  | cons d text ih =>
      rw [List.splitOnP_cons_eq_if_modifyHead] at hpiece
      obtain ⟨first, rest, hpieces⟩ := List.exists_cons_of_ne_nil (List.splitOnP_ne_nil p text)
      rw [hpieces] at ih hpiece
      split at hpiece
      · rcases List.mem_cons.mp hpiece with rfl | hpiece
        · exact nofun
        · exact ih hpiece
      next hd =>
        rcases List.mem_cons.mp hpiece with rfl | hpiece
        · intro c hc
          rcases List.mem_cons.mp hc with rfl | hc
          · exact Bool.eq_false_iff.mpr hd
          · exact ih List.mem_cons_self c hc
        · exact ih (List.mem_cons_of_mem _ hpiece)

end Pieces

/-- What `split_whitespace` yields. -/
structure Word (word : String) : Prop where
  nonempty : word ≠ ""
  plain : ∀ c ∈ word.toList, isWhitespace c = false

theorem word_of_mem {line word : String} (h : word ∈ splitWhitespace line) : Word word := by
  rw [splitWhitespace, List.mem_map] at h
  obtain ⟨piece, hpiece, rfl⟩ := h
  rw [List.mem_filter] at hpiece
  constructor
  case nonempty =>
    intro hempty
    have hnil := congrArg String.toList hempty
    rw [String.toList_ofList] at hnil
    rw [hnil] at hpiece
    exact Bool.false_ne_true hpiece.2
  case plain =>
    rw [String.toList_ofList]
    exact splitOnP_plain hpiece.1

theorem splitWhitespace_word {word : String} (h : Word word) : splitWhitespace word = [word] := by
  have hne : word.toList.isEmpty = false := by
    rw [Bool.eq_false_iff, ne_eq, List.isEmpty_iff]
    intro hnil
    exact h.nonempty (String.toList_inj.mp hnil)
  simp only [splitWhitespace, List.splitOnP_eq_singleton h.plain, List.filter_cons, hne,
    Bool.not_false, if_true, List.filter_nil, List.map_cons, List.map_nil, String.ofList_toList]

theorem splitWhitespace_append (front back : String) :
    splitWhitespace (front ++ " " ++ back) = splitWhitespace front ++ splitWhitespace back := by
  have hchars : (front ++ " " ++ back).toList = front.toList ++ ' ' :: back.toList := by
    rw [String.toList_append, String.toList_append, List.append_assoc]
    rfl
  have hspace : isWhitespace ' ' = true := by decide
  rw [splitWhitespace, hchars, List.splitOnP_append_cons _ _ hspace, List.filter_append,
    List.map_append]
  rfl

/-- A line that is not blank has a word. -/
theorem splitWhitespace_ne_nil {line : String} (h : ¬(trim line).isEmpty = true) :
    splitWhitespace line ≠ [] := by
  intro hnil
  have hblank : ∀ c ∈ line.toList, isWhitespace c = true := by
    intro c hc
    by_contra hplain
    rw [Bool.not_eq_true] at hplain
    obtain ⟨piece, hpiece, hmem⟩ := mem_splitOnP hc hplain
    rw [splitWhitespace, List.map_eq_nil_iff, List.filter_eq_nil_iff] at hnil
    apply hnil piece hpiece
    rw [Bool.not_eq_true', List.isEmpty_eq_false_iff]
    exact List.ne_nil_of_mem hmem
  apply h
  rw [trim, List.dropWhile_eq_nil_iff.mpr hblank, List.reverse_nil, List.dropWhile_nil,
    List.reverse_nil]
  rfl

/-! ## Lines -/

/-- The words of a line with a space between them. -/
def joined (line : List String) : String := " ".intercalate line

theorem joined_append_singleton {line : List String} (hline : line ≠ []) (word : String) :
    joined (line ++ [word]) = joined line ++ " " ++ word := by
  rw [joined, String.intercalate_append_of_ne_nil hline (List.cons_ne_nil word []),
    String.intercalate_singleton]
  rfl

theorem length_joined (line : List String) :
    (joined line).length = lineWidth String.length line := by
  induction line using List.reverseRecOn with
  | nil => rfl
  | append_singleton line word ih =>
      by_cases hline : line = []
      · subst hline
        rw [List.nil_append, joined, String.intercalate_singleton]
        rfl
      · have hspace : " ".length = 1 := by decide
        rw [joined_append_singleton hline, lineWidth_append_singleton hline, String.length_append,
          String.length_append, ih, hspace]

theorem joined_ne_empty {line : List String} (hline : line ≠ [])
    (hwords : ∀ word ∈ line, word ≠ "") : joined line ≠ "" := by
  cases line with
  | nil => exact absurd rfl hline
  | cons word line =>
      have hword := hwords word List.mem_cons_self
      by_cases hrest : line = []
      · subst hrest
        rwa [joined, String.intercalate_singleton]
      · rw [joined, String.intercalate_cons_of_ne_nil hrest, ne_eq, String.append_eq_empty_iff,
          String.append_eq_empty_iff]
        rintro ⟨⟨hempty, -⟩, -⟩
        exact hword hempty

/-- The words of an output line are the words that were put on it. -/
theorem splitWhitespace_joined {line : List String} (h : ∀ word ∈ line, Word word) :
    splitWhitespace (joined line) = line := by
  induction line using List.reverseRecOn with
  | nil => decide
  | append_singleton line word ih =>
      have hword : Word word := h word (List.mem_append_right _ (List.mem_singleton_self word))
      have hwords : ∀ other ∈ line, Word other :=
        fun other hother => h other (List.mem_append_left _ hother)
      by_cases hline : line = []
      · subst hline
        rw [List.nil_append, joined, String.intercalate_singleton, splitWhitespace_word hword]
      · rw [joined_append_singleton hline, splitWhitespace_append, ih hwords,
          splitWhitespace_word hword]

/-! ## The loop -/

theorem wrapWord_first (maximum : Nat) (output : List String) (word : String) :
    wrapWord maximum (output, "") word = (output, word) := by
  have hempty : "".isEmpty = true := rfl
  simp only [wrapWord, hempty, Bool.not_true, Bool.false_and, Bool.false_eq_true, if_false,
    if_true, String.empty_append]

theorem wrapWord_joined {maximum : Nat} {line : List String} (hline : line ≠ [])
    (hwords : ∀ word ∈ line, word ≠ "") (output : List String) (word : String) :
    wrapWord maximum (output, joined line) word =
      if lineWidth String.length line + 1 + word.length ≤ maximum then
        (output, joined (line ++ [word]))
      else (output ++ [joined line], word) := by
  have hcurrent : (joined line).isEmpty = false :=
    String.isEmpty_eq_false_iff.mpr (joined_ne_empty hline hwords)
  have hempty : "".isEmpty = true := rfl
  by_cases hroom : lineWidth String.length line + 1 + word.length ≤ maximum
  · have hfits : ¬lineWidth String.length line + 1 + word.length > maximum := Nat.not_lt.mpr hroom
    rw [if_pos hroom, joined_append_singleton hline]
    simp only [wrapWord, hcurrent, length_joined, hfits, decide_false, Bool.and_false,
      Bool.false_eq_true, if_false]
    rw [String.push_eq_append]
    rfl
  · have hfull : lineWidth String.length line + 1 + word.length > maximum := Nat.lt_of_not_le hroom
    rw [if_neg hroom]
    simp only [wrapWord, hcurrent, length_joined, hfull, decide_true, Bool.not_false, Bool.and_true,
      Bool.false_eq_true, if_false, if_true, hempty, String.empty_append]

/-- The loop makes the greedy lines. -/
theorem foldl_wrapWord {maximum : Nat} (words : List String) {line : List String}
    (hline : line ≠ []) (hall : ∀ word ∈ line ++ words, word ≠ "") (output : List String) :
    (words.foldl (wrapWord maximum) (output, joined line)).1 ++
        [(words.foldl (wrapWord maximum) (output, joined line)).2] =
      output ++ (breakFrom String.length maximum line words).map joined := by
  induction words generalizing line output with
  | nil => rfl
  | cons word words ih =>
      have hwords : ∀ other ∈ line, other ≠ "" :=
        fun other hother => hall other (List.mem_append_left _ hother)
      rw [List.foldl_cons, wrapWord_joined hline hwords, breakFrom]
      split
      · apply ih (List.append_ne_nil_of_right_ne_nil line (List.cons_ne_nil word []))
        rw [List.append_assoc]
        exact hall
      · have hsingle : word = joined [word] := by rw [joined, String.intercalate_singleton]
        have hrest : ∀ other ∈ [word] ++ words, other ≠ "" :=
          fun other hother => hall other (List.mem_append_right _ hother)
        have hlines := ih (List.cons_ne_nil word []) hrest (output ++ [joined line])
        rw [← hsingle, List.append_assoc, List.singleton_append] at hlines
        exact hlines

/-- What `wrap_text` makes of a line that is not blank. -/
structure Wrapped (maximum : Nat) (line : String) (output : List String) : Prop where
  words : output.flatMap splitWhitespace = splitWhitespace line
  spaced : ∀ text ∈ output, text = " ".intercalate (splitWhitespace text)
  fits : ∀ text ∈ output, text.length ≤ maximum ∨ splitWhitespace text = [text]
  greedy : ∀ before text next after, output = before ++ text :: next :: after →
    ∃ word rest, splitWhitespace next = word :: rest ∧ maximum < text.length + 1 + word.length
  nonempty : output ≠ [] ∧ "" ∉ output

theorem wrapped_of_broken {maximum : Nat} {line : String} {groups : List (List String)}
    (hline : splitWhitespace line ≠ [])
    (h : Broken String.length maximum (splitWhitespace line) groups) :
    Wrapped maximum line (groups.map joined) := by
  have hwords : ∀ group ∈ groups, ∀ word ∈ group, Word word := by
    intro group hgroup word hword
    apply @word_of_mem line
    rw [← h.all]
    exact List.mem_flatten_of_mem hgroup hword
  have hsplit : ∀ group ∈ groups, splitWhitespace (joined group) = group :=
    fun group hgroup => splitWhitespace_joined (hwords group hgroup)
  constructor
  case words =>
    rw [List.flatMap_map, ← h.all, ← List.flatMap_id]
    exact List.flatMap_congr hsplit
  case spaced =>
    intro text htext
    obtain ⟨group, hgroup, rfl⟩ := List.mem_map.mp htext
    rw [hsplit group hgroup, joined]
  case fits =>
    intro text htext
    obtain ⟨group, hgroup, rfl⟩ := List.mem_map.mp htext
    rw [length_joined, hsplit group hgroup]
    apply (h.fits group hgroup).imp_right
    rintro ⟨word, rfl⟩
    rw [joined, String.intercalate_singleton]
  case greedy =>
    intro before text next after heq
    obtain ⟨groupsBefore, groupsAfter, rfl, rfl, hmore⟩ := List.map_eq_append_iff.mp heq
    obtain ⟨group, tail, rfl, rfl, htail⟩ := List.map_eq_cons_iff.mp hmore
    obtain ⟨nextGroup, rest, rfl, rfl, -⟩ := List.map_eq_cons_iff.mp htail
    have hnext : nextGroup ∈ groupsBefore ++ group :: nextGroup :: rest :=
      List.mem_append_right _ (List.mem_cons_of_mem _ List.mem_cons_self)
    obtain ⟨word, words, rfl⟩ := List.exists_cons_of_ne_nil (h.nonempty nextGroup hnext)
    refine ⟨word, words, hsplit _ hnext, ?_⟩
    rw [length_joined]
    exact h.greedy groupsBefore group word words rest rfl
  case nonempty =>
    constructor
    · intro hnil
      rw [List.map_eq_nil_iff] at hnil
      apply hline
      rw [← h.all, hnil, List.flatten_nil]
    · intro hmem
      obtain ⟨group, hgroup, hempty⟩ := List.mem_map.mp hmem
      exact joined_ne_empty (h.nonempty group hgroup)
        (fun word hword => (hwords group hgroup word hword).nonempty) hempty

/-- The output for one input line. -/
def LineWrapped (maximum : Nat) (line : String) (output : List String) : Prop :=
  if (trim line).isEmpty then output = [""] else Wrapped maximum line output

theorem wrapLine_block (maximum : Nat) (line : String) :
    ∃ block, LineWrapped maximum line block ∧
      ∀ output, wrapLine maximum output line = output ++ block := by
  by_cases hblank : (trim line).isEmpty = true
  · refine ⟨[""], ?_, fun output => if_pos hblank⟩
    rw [LineWrapped, if_pos hblank]
  · have hne := splitWhitespace_ne_nil hblank
    obtain ⟨word, words, hwords⟩ := List.exists_cons_of_ne_nil hne
    have hall : ∀ other ∈ [word] ++ words, other ≠ "" := by
      intro other hother
      apply (@word_of_mem line other _).nonempty
      rw [hwords]
      exact hother
    have hbroken : Broken String.length maximum (splitWhitespace line)
        (breakFrom String.length maximum [word] words) := by
      rw [hwords]
      exact broken_breakFrom words (List.cons_ne_nil word []) (.inr ⟨word, rfl⟩)
    refine ⟨(breakFrom String.length maximum [word] words).map joined, ?_, fun output => ?_⟩
    · rw [LineWrapped, if_neg hblank]
      exact wrapped_of_broken hne hbroken
    · have hlines := @foldl_wrapWord maximum words [word] (List.cons_ne_nil word []) hall output
      have hsingle : joined [word] = word := by rw [joined, String.intercalate_singleton]
      rw [hsingle] at hlines
      rw [wrapLine, if_neg hblank, hwords, List.foldl_cons, wrapWord_first]
      exact hlines

theorem foldl_wrapLine (maximum : Nat) (inputs output : List String) :
    ∃ blocks, inputs.foldl (wrapLine maximum) output = output ++ blocks.flatten ∧
      List.Forall₂ (LineWrapped maximum) inputs blocks := by
  induction inputs generalizing output with
  | nil => exact ⟨[], (List.append_nil output).symm, .nil⟩
  | cons line inputs ih =>
      obtain ⟨block, hblock, hline⟩ := wrapLine_block maximum line
      obtain ⟨blocks, hblocks, hall⟩ := ih (output ++ block)
      have hwrapped := List.Forall₂.cons hblock hall
      refine ⟨block :: blocks, ?_, hwrapped⟩
      rw [List.foldl_cons, hline, hblocks, List.append_assoc, List.flatten_cons]

theorem wrap_text_exact (text : String) (maximumCharacters : Nat) :
    ∃ blocks, wrapText text maximumCharacters = blocks.flatten ∧
      List.Forall₂ (LineWrapped (max maximumCharacters 1)) (lines text) blocks :=
  foldl_wrapLine (max maximumCharacters 1) (lines text) []

end MoonlightScarlet.App.Licenses
