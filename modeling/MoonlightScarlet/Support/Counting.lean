import Mathlib.Data.Set.Card
/-!
# Counting threads

The number of threads with a property, in `ℕ∞` so that there may be any number of threads,
before and after a step in which one or two of them change.
-/

namespace Support.Counting

variable {T : Type*} {P Q : T → Prop} {t u : T} {k : ℕ}

noncomputable def count (P : T → Prop) : ℕ∞ := {t | P t}.encard

theorem count_mono (h : ∀ u, P u → Q u) : count P ≤ count Q :=
  Set.encard_le_encard h

/-- One more thread has the property. -/
theorem count_add_one_le (ht : ¬P t) (hQ : Q t) (h : ∀ u, P u → Q u) :
    count P + 1 ≤ count Q := by
  calc count P + 1 = (insert t {u | P u}).encard := (Set.encard_insert_of_notMem ht).symm
    _ ≤ count Q := Set.encard_le_encard (Set.insert_subset hQ h)

/-- One thread hands the property on to another. -/
theorem count_le_of_exchange (hP : ¬P u) (hQ : Q u) (h : ∀ v ≠ t, P v → Q v) :
    count P ≤ count Q := by
  have hsub : {v | P v} ⊆ insert t ({v | Q v} \ {u}) := by
    intro v hv
    by_cases hvt : v = t
    · exact Or.inl hvt
    · exact Or.inr ⟨h v hvt hv, fun hvu => hP (hvu ▸ hv)⟩
  calc count P ≤ ({v | Q v} \ {u}).encard + 1 :=
        (Set.encard_le_encard hsub).trans (Set.encard_insert_le _ _)
    _ = count Q := Set.encard_sdiff_singleton_add_one hQ

theorem exists_of_le_count (h : (k : ℕ∞) ≤ count P) (hk : 0 < k) : ∃ u, P u := by
  have hne : count P ≠ 0 := by
    intro hzero
    rw [hzero, nonpos_iff_eq_zero, Nat.cast_eq_zero] at h
    exact hk.ne' h
  exact Set.nonempty_of_encard_ne_zero hne

end Support.Counting
