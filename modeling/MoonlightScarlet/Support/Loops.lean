import Mathlib.Data.Nat.Notation
/-!
# Invariants of counted loops
-/

namespace Support.Loops

variable {α : Type*} {n : ℕ}

/-- What holds before a loop and is kept by each round holds after it. -/
theorem fold_induct {f : (i : ℕ) → i < n → α → α} (P : ℕ → α → Prop) {a : α} (start : P 0 a)
    (step : ∀ i (h : i < n) a, P i a → P (i + 1) (f i h a)) : P n (n.fold f a) := by
  induction n with
  | zero => exact start
  | succ n ih =>
      rw [Nat.fold_succ]
      exact step n (Nat.lt_succ_self n) _ (ih fun i h => step i (Nat.lt_succ_of_lt h))

/-- The same for a loop that counts down. -/
theorem foldRev_induct {f : (i : ℕ) → i < n → α → α} (P : ℕ → α → Prop) {a : α} (start : P n a)
    (step : ∀ i (h : i < n) a, P (i + 1) a → P i (f i h a)) : P 0 (n.foldRev f a) := by
  induction n generalizing a with
  | zero => exact start
  | succ n ih =>
      rw [Nat.foldRev_succ]
      exact ih (step n (Nat.lt_succ_self n) a start) fun i h => step i (Nat.lt_succ_of_lt h)

/-- Goes on from `i` while the test holds, `n` places at most. -/
def skipWhile (test : ℕ → Bool) : ℕ → ℕ → ℕ
  | 0, i => i
  | n + 1, i => if test i then skipWhile test n (i + 1) else i

theorem le_skipWhile (test : ℕ → Bool) (n i : ℕ) : i ≤ skipWhile test n i := by
  induction n generalizing i with
  | zero => exact Nat.le_refl _
  | succ n ih =>
      rw [skipWhile]
      split
      · exact Nat.le_trans (Nat.le_succ i) (ih (i + 1))
      · exact Nat.le_refl _

theorem skipWhile_le (test : ℕ → Bool) (n i : ℕ) : skipWhile test n i ≤ i + n := by
  induction n generalizing i with
  | zero => exact Nat.le_refl _
  | succ n ih =>
      rw [skipWhile]
      split
      · have hrest := ih (i + 1)
        omega
      · omega

/-- Every place passed over fulfils the test. -/
theorem test_of_lt_skipWhile {test : ℕ → Bool} {n i j : ℕ} (hi : i ≤ j)
    (hj : j < skipWhile test n i) : test j = true := by
  induction n generalizing i with
  | zero => exact absurd hj (Nat.not_lt.mpr hi)
  | succ n ih =>
      rw [skipWhile] at hj
      split at hj
      case isTrue htest =>
        rcases Nat.eq_or_lt_of_le hi with rfl | hlt
        · exact htest
        · exact ih hlt hj
      case isFalse => exact absurd hj (Nat.not_lt.mpr hi)

/-- The place stopped at does not, unless the places ran out. -/
theorem test_skipWhile {test : ℕ → Bool} {n i : ℕ} (h : skipWhile test n i < i + n) :
    test (skipWhile test n i) = false := by
  induction n generalizing i with
  | zero => exact absurd h (Nat.lt_irrefl i)
  | succ n ih =>
      rw [skipWhile] at h ⊢
      split at h
      case isTrue htest =>
        rw [if_pos htest]
        exact ih (by omega)
      case isFalse htest =>
        rw [if_neg htest]
        exact Bool.not_eq_true _ ▸ htest

/-- The place stopped at is the first that fails the test. -/
theorem skipWhile_eq {test : ℕ → Bool} {n i r : ℕ} (hbefore : ∀ t, i ≤ t → t < r → test t = true)
    (hstop : test r = false) (hi : i ≤ r) (hr : r ≤ i + n) : skipWhile test n i = r := by
  rcases Nat.lt_trichotomy (skipWhile test n i) r with hlt | heq | hgt
  · have hfalse := test_skipWhile (Nat.lt_of_lt_of_le hlt hr)
    rw [hbefore _ (le_skipWhile test n i) hlt] at hfalse
    exact absurd hfalse (by decide)
  · exact heq
  · rw [test_of_lt_skipWhile hi hgt] at hstop
    exact absurd hstop (by decide)

end Support.Loops
