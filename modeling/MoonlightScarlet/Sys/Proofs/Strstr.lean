import MoonlightScarlet.Support.Occurrences
import MoonlightScarlet.Sys.Strings
/-!
# strstr finds the first occurrence

`strncmp` stops at the NUL of the haystack, since no character of the needle is one.
-/

namespace MoonlightScarlet.Sys.Strings

open Vsnprintf Support.Occurrences

variable {haystack needle : List Char}

theorem strlen_eq {text : List Char} (h : nul ∉ text) (others : List Char) :
    strlen (text ++ nul :: others) = some text.length := by
  induction text with
  | nil => exact if_pos rfl
  | cons c text ih =>
      rw [List.mem_cons, not_or] at h
      rw [List.cons_append, strlen, if_neg (Ne.symm h.1), ih h.2]
      rfl

/-- Different characters make a difference of `int`s. -/
theorem sub_eq_zero_iff (a b : Char) : (a.toNat : Int) - b.toNat = 0 ↔ a = b := by
  rw [Int.sub_eq_zero, Int.natCast_inj, Char.toNat_inj]

/-- The comparison ends inside both strings, at the latest at the NUL of the first. -/
theorem strncmp_prefix (hhaystack : nul ∉ haystack) (hneedle : nul ∉ needle)
    (others others' : List Char) :
    ∃ order, strncmp (haystack ++ nul :: others) (needle ++ nul :: others') needle.length =
        some order ∧ (order = 0 ↔ needle <+: haystack) := by
  induction needle generalizing haystack with
  | nil => exact ⟨0, by rw [List.length_nil, strncmp], iff_of_true rfl List.nil_prefix⟩
  | cons b needle ih =>
      rw [List.mem_cons, not_or] at hneedle
      cases haystack with
      | nil =>
          refine ⟨nul.toNat - b.toNat, if_pos (.inr rfl), ?_⟩
          rw [sub_eq_zero_iff]
          exact iff_of_false hneedle.1 fun h => List.cons_ne_nil b needle (List.prefix_nil.mp h)
      | cons a haystack =>
          rw [List.mem_cons, not_or] at hhaystack
          by_cases heq : a = b
          · obtain ⟨order, horder, hiff⟩ := ih hhaystack.2 hneedle.2
            have hgo : ¬(a ≠ b ∨ a = nul) := by
              rintro (hne | hnul)
              · exact hne heq
              · exact hhaystack.1 hnul.symm
            refine ⟨order, (if_neg hgo).trans horder, ?_⟩
            rw [hiff, List.cons_prefix_cons, and_iff_right heq.symm]
          · refine ⟨a.toNat - b.toNat, if_pos (.inl heq), ?_⟩
            rw [sub_eq_zero_iff, List.cons_prefix_cons]
            exact iff_of_false heq fun h => heq h.1.symm

theorem search_finds (hhaystack : nul ∉ haystack) (hneedle : nul ∉ needle) (hne : needle ≠ [])
    (others others' : List Char) :
    ∃ result, search (needle ++ nul :: others') needle.length (haystack ++ nul :: others) =
        some result ∧ Finds needle haystack result := by
  induction haystack with
  | nil => exact ⟨none, if_pos rfl, .nil hne⟩
  | cons c haystack ih =>
      obtain ⟨order, horder, hiff⟩ := strncmp_prefix hhaystack hneedle others others'
      rw [List.mem_cons, not_or] at hhaystack
      rw [List.cons_append] at horder
      rw [List.cons_append, search, if_neg (Ne.symm hhaystack.1), horder]
      by_cases hzero : order = 0
      · exact ⟨some 0, if_pos hzero, .here (hiff.mp hzero)⟩
      · obtain ⟨result, hresult, hfinds⟩ := ih hhaystack.2
        refine ⟨result.map (· + 1), (if_neg hzero).trans ?_, hfinds.cons (mt hiff.mpr hzero)⟩
        rw [hresult]
        rfl

/-- The first occurrence is found, and what stands behind the NULs, if anything, is not read. -/
theorem strstr_exact (hhaystack : nul ∉ haystack) (hneedle : nul ∉ needle)
    (others others' : List Char) :
    (∃ result, strstr (haystack ++ nul :: others) (needle ++ nul :: others') = some result ∧
      Finds needle haystack result ∧ (needle = [] → result = some 0)) ∧
    ∀ rest, rest <:+ haystack →
      ∃ order, strncmp (rest ++ nul :: others) (needle ++ nul :: others') needle.length =
        some order ∧ (order = 0 ↔ needle <+: rest) := by
  refine ⟨?_, fun rest hrest => ?_⟩
  · have hlength := strlen_eq hneedle others'
    cases needle with
    | nil =>
        refine ⟨some 0, ?_, .here List.nil_prefix, fun _ => rfl⟩
        rw [strstr, hlength]
        rfl
    | cons b needle =>
        have hne := List.cons_ne_nil b needle
        obtain ⟨result, hresult, hfinds⟩ := search_finds hhaystack hneedle hne others others'
        refine ⟨result, ?_, hfinds, fun hnil => absurd hnil hne⟩
        rw [strstr, hlength]
        exact hresult
  · exact strncmp_prefix (fun hmem => hhaystack (hrest.subset hmem)) hneedle others others'

/-- A partial match before the match, and one at the end. -/
theorem strstr_exact_overlap :
    (∃ result, strstr (['a', 'a', 'b', 'a'] ++ [nul]) (['a', 'b'] ++ [nul]) = some result ∧
      Finds ['a', 'b'] ['a', 'a', 'b', 'a'] result ∧ (['a', 'b'] = [] → result = some 0)) ∧
    ∀ rest, rest <:+ ['a', 'a', 'b', 'a'] →
      ∃ order, strncmp (rest ++ [nul]) (['a', 'b'] ++ [nul]) 2 = some order ∧
        (order = 0 ↔ ['a', 'b'] <+: rest) :=
  strstr_exact (by decide) (by decide) [] []

example : strstr ['a', 'a', 'b', 'a', nul] ['a', 'b', nul] = some (some 1) := by decide

end MoonlightScarlet.Sys.Strings
