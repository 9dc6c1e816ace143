import Mathlib.Data.List.Induction
import Mathlib.Data.List.TakeWhile
/-!
# Numerals and longest prefixes

A scanner takes the longest prefix of a text that has a given form.  Digits are read
from the left; `number` is what they stand for in a base.  The classes of characters are
ranges of codes.
-/

namespace Support.Numerals

variable {α : Type*}

/-! ## Longest prefixes -/

structure Longest (form : List α → Prop) (text part : List α) : Prop where
  starts : part <+: text
  formed : form part
  longest : ∀ other, other <+: text → form other → other.length ≤ part.length

theorem Longest.unique {form : List α → Prop} {text part part' : List α}
    (h : Longest form text part) (h' : Longest form text part') : part = part' :=
  (List.prefix_of_prefix_length_le h.starts h'.starts
    (h'.longest part h.starts h.formed)).eq_of_length_le (h.longest part' h'.starts h'.formed)

theorem length_le_takeWhile {p : α → Bool} {part text : List α} (hpart : part <+: text)
    (hall : ∀ c ∈ part, p c = true) : part.length ≤ (text.takeWhile p).length := by
  obtain ⟨rest, rfl⟩ := hpart
  rw [List.takeWhile_append_of_pos hall, List.length_append]
  exact Nat.le_add_right _ _

theorem all_takeWhile (p : α → Bool) (text : List α) : ∀ c ∈ text.takeWhile p, p c = true :=
  fun _ => List.mem_takeWhile_imp

/-- What a loop over a text takes, and where it stops. -/
theorem exists_span (p : α → Bool) (text : List α) :
    ∃ part rest, text = part ++ rest ∧ (∀ c ∈ part, p c = true) ∧
      ∀ c, rest.head? = some c → p c = false := by
  refine ⟨text.takeWhile p, text.dropWhile p, List.takeWhile_append_dropWhile.symm,
    all_takeWhile p text, fun c hc => ?_⟩
  have hnot := List.head?_dropWhile_not p text
  rw [hc] at hnot
  exact hnot

/-! ## Digits -/

section Digits

variable (digit : α → Nat) (base : Nat)

def number (digits : List α) : Nat := digits.foldl (fun n c => n * base + digit c) 0

variable {digit base}

theorem number_append_singleton (digits : List α) (c : α) :
    number digit base (digits ++ [c]) = number digit base digits * base + digit c := by
  rw [number, List.foldl_append]
  rfl

/-- Leading zeros do not count. -/
theorem number_zeros (base : Nat) {zeros : List α} (hzeros : ∀ c ∈ zeros, digit c = 0)
    (digits : List α) :
    number digit base (zeros ++ digits) = number digit base digits := by
  have hzero : number digit base zeros = 0 := by
    induction zeros using List.reverseRecOn with
    | nil => rfl
    | append_singleton zeros c ih =>
        rw [number_append_singleton, ih fun c hc => hzeros c (List.mem_append_left _ hc),
          hzeros c (List.mem_append_right _ (List.mem_singleton_self c)), Nat.zero_mul]
  rw [number, List.foldl_append]
  exact congrArg (fun start => List.foldl _ start digits) hzero

end Digits

/-! ## Characters -/

theorem digit_range_iff (c : Char) : ('0' ≤ c ∧ c ≤ '9') ↔ c.isDigit = true := by
  simp [Char.isDigit, Char.le_def]

theorem lower_range_iff (c : Char) : ('a' ≤ c ∧ c ≤ 'z') ↔ c.isLower = true := by
  have hrange : c.isLower = (decide ('a'.val ≤ c.val) && decide (c.val ≤ 'z'.val)) := rfl
  rw [hrange, Bool.and_eq_true, decide_eq_true_iff, decide_eq_true_iff, Char.le_def, Char.le_def]

theorem upper_range_iff (c : Char) : ('A' ≤ c ∧ c ≤ 'Z') ↔ c.isUpper = true := by
  have hrange : c.isUpper = decide ('A'.val ≤ c.val ∧ c.val ≤ 'Z'.val) := rfl
  rw [hrange, decide_eq_true_iff, Char.le_def, Char.le_def]

theorem toNat_range {c low high : Char} (h : low ≤ c ∧ c ≤ high) :
    low.toNat ≤ c.toNat ∧ c.toNat ≤ high.toNat :=
  ⟨UInt32.le_iff_toNat_le.mp (Char.le_def.mp h.1), UInt32.le_iff_toNat_le.mp (Char.le_def.mp h.2)⟩

theorem toNat_of_isDigit {c : Char} (h : c.isDigit = true) : 48 ≤ c.toNat ∧ c.toNat ≤ 57 :=
  toNat_range ((digit_range_iff c).mpr h)

theorem toNat_of_isLower {c : Char} (h : c.isLower = true) : 97 ≤ c.toNat ∧ c.toNat ≤ 122 :=
  toNat_range ((lower_range_iff c).mpr h)

theorem toNat_of_isUpper {c : Char} (h : c.isUpper = true) : 65 ≤ c.toNat ∧ c.toNat ≤ 90 :=
  toNat_range ((upper_range_iff c).mpr h)

end Support.Numerals
