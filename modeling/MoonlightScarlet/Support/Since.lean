import Mathlib.Data.List.Induction
/-!
# What happened since

A history is a list with its latest entry at the end.  `Since p q` says that there was an
entry with `p`, and none with `q` after it.
-/

namespace Support

variable {α : Type*} {p q : α → Prop}

def Since (p q : α → Prop) (past : List α) : Prop :=
  ∃ before x after, past = before ++ x :: after ∧ p x ∧ ∀ y ∈ after, ¬q y

namespace Since

theorem not_nil : ¬Since p q [] := by
  rintro ⟨before, x, after, hpast, -, -⟩
  exact List.append_ne_nil_of_right_ne_nil before (List.cons_ne_nil x after) hpast.symm

theorem append_singleton_iff (past : List α) (y : α) :
    Since p q (past ++ [y]) ↔ p y ∨ Since p q past ∧ ¬q y := by
  constructor
  · rintro ⟨before, x, after, hpast, hx, hafter⟩
    induction after using List.reverseRecOn with
    | nil =>
        obtain ⟨-, hlast⟩ := List.append_inj' hpast rfl
        rw [List.singleton_inj.mp hlast]
        exact .inl hx
    | append_singleton after z =>
        rw [← List.cons_append, ← List.append_assoc] at hpast
        obtain ⟨hrest, hlast⟩ := List.append_inj' hpast rfl
        rw [List.singleton_inj.mp hlast]
        refine .inr ⟨⟨before, x, after, hrest, hx, fun y hy => ?_⟩, ?_⟩
        · exact hafter y (List.mem_append_left _ hy)
        · exact hafter z (List.mem_append_right _ (List.mem_singleton_self z))
  · rintro (hy | ⟨⟨before, x, after, rfl, hx, hafter⟩, hy⟩)
    · exact ⟨past, y, [], rfl, hy, nofun⟩
    · refine ⟨before, x, after ++ [y], ?_, hx, ?_⟩
      · rw [List.append_assoc, List.cons_append]
      · intro z hz
        rcases List.mem_append.mp hz with hz | hz
        · exact hafter z hz
        · rw [List.mem_singleton.mp hz]
          exact hy

/-- What no longer holds was ended. -/
theorem exists_end {before after : List α} {x : α} (hx : p x)
    (h : ¬Since p q (before ++ x :: after)) : ∃ y ∈ after, q y := by
  by_contra hnone
  exact h ⟨before, x, after, rfl, hx, fun y hy hq => hnone ⟨y, hy, hq⟩⟩

end Since

end Support
