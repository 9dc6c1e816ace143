import Mathlib.Data.List.Infix
/-!
# Occurrences of a part

The positions at which a part stands in a text, and the first of them.
-/

namespace Support.Occurrences

variable {α : Type*} {part text : List α}

/-- The part stands in the text behind the first `i` elements. -/
def OccursAt (part text : List α) (i : Nat) : Prop :=
  ∃ front back, text = front ++ (part ++ back) ∧ front.length = i

/-- The answer of a search from the left. -/
inductive Finds (part text : List α) : Option Nat → Prop
  | found {i : Nat} (hoccurs : OccursAt part text i) (hfirst : ∀ j < i, ¬OccursAt part text j) :
      Finds part text (some i)
  | missing (hnone : ∀ i, ¬OccursAt part text i) : Finds part text none

theorem occursAt_zero : OccursAt part text 0 ↔ part <+: text := by
  constructor
  · rintro ⟨front, back, rfl, hfront⟩
    rw [List.length_eq_zero_iff] at hfront
    rw [hfront, List.nil_append]
    exact List.prefix_append part back
  · rintro ⟨back, rfl⟩
    exact ⟨[], back, rfl, rfl⟩

theorem occursAt_succ {x : α} {i : Nat} :
    OccursAt part (x :: text) (i + 1) ↔ OccursAt part text i := by
  constructor
  · rintro ⟨front, back, htext, hfront⟩
    obtain ⟨y, rest, rfl⟩ := List.exists_cons_of_length_eq_add_one hfront
    exact ⟨rest, back, (List.cons.inj htext).2, Nat.succ.inj hfront⟩
  · rintro ⟨front, back, rfl, hfront⟩
    exact ⟨x :: front, back, rfl, congrArg Nat.succ hfront⟩

theorem Finds.here (h : part <+: text) : Finds part text (some 0) :=
  .found (occursAt_zero.mpr h) fun j hj => absurd hj (Nat.not_lt_zero j)

theorem Finds.nil (h : part ≠ []) : Finds part ([] : List α) none := by
  refine .missing fun i => ?_
  rintro ⟨front, back, htext, -⟩
  exact h (List.append_eq_nil_iff.mp (List.append_eq_nil_iff.mp htext.symm).2).1

/-- A part that does not stand at the start is found where the rest has it. -/
theorem Finds.cons {x : α} {result : Option Nat} (hstart : ¬part <+: x :: text)
    (h : Finds part text result) : Finds part (x :: text) (result.map (· + 1)) := by
  cases h with
  | found hoccurs hfirst =>
      refine .found (occursAt_succ.mpr hoccurs) fun j hj => ?_
      cases j with
      | zero => exact mt occursAt_zero.mp hstart
      | succ j => exact mt occursAt_succ.mp (hfirst j (Nat.lt_of_succ_lt_succ hj))
  | missing hnone =>
      refine .missing fun i => ?_
      cases i with
      | zero => exact mt occursAt_zero.mp hstart
      | succ i => exact mt occursAt_succ.mp (hnone i)

end Support.Occurrences
