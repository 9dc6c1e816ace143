import Mathlib.LinearAlgebra.Matrix.ToLinearEquiv
import Mathlib.Algebra.Module.BigOperators
import Mathlib.Tactic.LinearCombination
/-!
# Elimination without pivoting

Linear equations whose right sides are vectors, brought to a triangular form by row
operations in place and solved from the last unknown to the first.  Rows are never
exchanged: the pivots are other than zero because each leading block of the coefficients
is regular, and the row operations keep this.
-/

namespace Support.Elimination

open Finset

/-- Equations with scalar coefficients and vectors on the right. -/
structure System (F M : Type*) where
  coeff : ℕ → ℕ → F
  value : ℕ → M

/-- The leading `n` rows and columns have a trivial kernel. -/
def Regular {F : Type*} [Field F] (a : ℕ → ℕ → F) (n : ℕ) : Prop :=
  ∀ v : ℕ → F, (∀ i < n, ∑ j ∈ range n, a i j * v j = 0) → ∀ j < n, v j = 0

variable {F M : Type*} [Field F] [AddCommGroup M] [Module F M]

namespace System

/-- Adds `u` times the row `source` to the row `target`. -/
def addRow (s : System F M) (u : F) (source target : ℕ) : System F M where
  coeff := Function.update s.coeff target fun j => s.coeff target j + u * s.coeff source j
  value := Function.update s.value target (s.value target + u • s.value source)

/-- Multiplies the row `x` by `u`, from column `x` on. -/
def scaleRow (s : System F M) (u : F) (x : ℕ) : System F M where
  coeff := Function.update s.coeff x fun j => if x ≤ j then u * s.coeff x j else s.coeff x j
  value := Function.update s.value x (u • s.value x)

/-- Adds `u` times the right side of the row `source` to that of the row `target`. -/
def addValue (s : System F M) (u : F) (source target : ℕ) : System F M where
  coeff := s.coeff
  value := Function.update s.value target (s.value target + u • s.value source)

/-- The vectors satisfy the first `n` equations. -/
def Solves (s : System F M) (n : ℕ) (solution : ℕ → M) : Prop :=
  ∀ i < n, s.value i = ∑ j ∈ range n, s.coeff i j • solution j

end System

/-- A regular block has no row of zeros. -/
theorem Regular.exists_ne_zero {a : ℕ → ℕ → F} {n i : ℕ} (h : Regular a n) (hi : i < n) :
    ∃ j < n, a i j ≠ 0 := by
  by_contra hzero
  push Not at hzero
  let block : Matrix (Fin n) (Fin n) F := fun i j => a i j
  have hdet : block.det = 0 :=
    Matrix.det_eq_zero_of_row_eq_zero ⟨i, hi⟩ fun j => hzero j j.isLt
  obtain ⟨v, hv, hkernel⟩ := Matrix.exists_mulVec_eq_zero_iff.mpr hdet
  apply hv
  funext j
  have hextend := h (fun j => if hj : j < n then v ⟨j, hj⟩ else 0) (fun i hi => by
    have hrow : ∑ j, block ⟨i, hi⟩ j * v j = 0 := congrFun hkernel ⟨i, hi⟩
    rw [sum_range]
    simpa using hrow) j j.isLt
  simpa using hextend

theorem regular_one {a : ℕ → ℕ → F} (h : a 0 0 ≠ 0) : Regular a 1 := by
  intro v hv j hj
  have hrow := hv 0 Nat.zero_lt_one
  rw [sum_range_one] at hrow
  rw [Nat.lt_one_iff.mp hj]
  exact (mul_eq_zero.mp hrow).resolve_left h

theorem regular_two {a : ℕ → ℕ → F} (h : a 0 0 * a 1 1 - a 0 1 * a 1 0 ≠ 0) : Regular a 2 := by
  intro v hv j hj
  have htop := hv 0 (by decide)
  have hbottom := hv 1 (by decide)
  rw [sum_range_succ, sum_range_one] at htop hbottom
  have hzero : ∀ x, (a 0 0 * a 1 1 - a 0 1 * a 1 0) * x = 0 → x = 0 := fun x hx =>
    (mul_eq_zero.mp hx).resolve_left h
  rcases Nat.le_one_iff_eq_zero_or_eq_one.mp (Nat.le_of_lt_succ hj) with rfl | rfl
  · exact hzero _ (by linear_combination a 1 1 * htop - a 0 1 * hbottom)
  · exact hzero _ (by linear_combination a 0 0 * hbottom - a 1 0 * htop)

/-- A row operation that a combination of the rows below `n` undoes keeps the block regular. -/
theorem Regular.addRow {s : System F M} {n source target : ℕ} (h : Regular s.coeff n)
    (u : F) (horder : source < target) : Regular (s.addRow u source target).coeff n := by
  intro v hv
  refine h v fun i hi => ?_
  have hrow := hv i hi
  by_cases htarget : i = target
  · have hsource := hv source (by omega)
    simp only [System.addRow, htarget, Function.update_self,
      Function.update_of_ne horder.ne] at hrow hsource
    simp only [add_mul, sum_add_distrib, mul_assoc, ← mul_sum] at hrow
    rwa [hsource, mul_zero, add_zero, ← htarget] at hrow
  · simpa only [System.addRow, Function.update_of_ne htarget] using hrow

theorem Regular.scaleRow {s : System F M} {n x : ℕ} (h : Regular s.coeff n) {u : F} (hu : u ≠ 0)
    (hleft : ∀ j < x, s.coeff x j = 0) : Regular (s.scaleRow u x).coeff n := by
  intro v hv
  refine h v fun i hi => ?_
  have hrow := hv i hi
  by_cases htarget : i = x
  · have hscaled : ∀ j, (if x ≤ j then u * s.coeff x j else s.coeff x j) = u * s.coeff x j := by
      intro j
      split
      · rfl
      · rw [hleft j (by omega), mul_zero]
    simp only [System.scaleRow, htarget, Function.update_self, hscaled, mul_assoc,
      ← mul_sum] at hrow
    rw [htarget]
    exact (mul_eq_zero.mp hrow).resolve_left hu
  · simpa only [System.scaleRow, Function.update_of_ne htarget] using hrow

theorem System.Solves.addRow {s : System F M} {n source target : ℕ} {solution : ℕ → M}
    (h : s.Solves n solution) (u : F) (hsource : source < n) :
    (s.addRow u source target).Solves n solution := by
  intro i hi
  by_cases htarget : i = target
  · subst htarget
    simp only [System.addRow, Function.update_self, add_smul, mul_smul, sum_add_distrib,
      ← smul_sum]
    rw [h i hi, h source hsource]
  · simpa only [System.addRow, Function.update_of_ne htarget] using h i hi

theorem System.Solves.scaleRow {s : System F M} {n x : ℕ} {solution : ℕ → M}
    (h : s.Solves n solution) (u : F) (hleft : ∀ j < x, s.coeff x j = 0) :
    (s.scaleRow u x).Solves n solution := by
  intro i hi
  by_cases htarget : i = x
  · subst htarget
    simp only [System.scaleRow, Function.update_self]
    rw [h i hi, smul_sum]
    refine sum_congr rfl fun j _ => ?_
    split
    · rw [mul_smul]
    · rw [hleft j (by omega), zero_smul, smul_zero]
  · simpa only [System.scaleRow, Function.update_of_ne htarget] using h i hi

/-! ## The forward pass -/

/-- The equations after the first `x` columns: these have ones on the diagonal and zeros
below it. -/
structure Eliminated (s : System F M) (n : ℕ) (solution : ℕ → M) (x : ℕ) : Prop where
  solves : s.Solves n solution
  regular : ∀ k ≤ n, Regular s.coeff k
  diagonal : ∀ j < x, s.coeff j j = 1
  below : ∀ j < x, ∀ i, j < i → i < n → s.coeff i j = 0

/-- Column `x` in the making: the rows before `row` have their zero. -/
structure Clearing (s : System F M) (n : ℕ) (solution : ℕ → M) (x row : ℕ) : Prop where
  eliminated : Eliminated s n solution x
  pivot : s.coeff x x = 1
  cleared : ∀ i, x < i → i < row → s.coeff i x = 0

variable {s : System F M} {n x row : ℕ} {solution : ℕ → M}

theorem Eliminated.start (hsolves : s.Solves n solution)
    (hregular : ∀ k ≤ n, Regular s.coeff k) : Eliminated s n solution 0 where
  solves := hsolves
  regular := hregular
  diagonal j hj := absurd hj j.not_lt_zero
  below j hj := absurd hj j.not_lt_zero

/-- The leading block up to the pivot has zeros on its last row but for the pivot. -/
theorem Eliminated.pivot_ne_zero (h : Eliminated s n solution x) (hx : x < n) :
    s.coeff x x ≠ 0 := by
  obtain ⟨j, hj, hne⟩ := (h.regular (x + 1) hx).exists_ne_zero (Nat.lt_succ_self x)
  rcases Nat.lt_succ_iff_lt_or_eq.mp hj with hlt | rfl
  · exact absurd (h.below j hlt x hlt hx) hne
  · exact hne

theorem Eliminated.scale (h : Eliminated s n solution x) (hx : x < n) :
    Clearing (s.scaleRow (s.coeff x x)⁻¹ x) n solution x (x + 1) := by
  have hpivot := h.pivot_ne_zero hx
  have hleft : ∀ j < x, s.coeff x j = 0 := fun j hj => h.below j hj x hj hx
  have hcolumn : ∀ i, ∀ j < x, (s.scaleRow (s.coeff x x)⁻¹ x).coeff i j = s.coeff i j := by
    intro i j hj
    by_cases hi : i = x
    · subst hi
      simp only [System.scaleRow, Function.update_self, if_neg (Nat.not_le.mpr hj)]
    · simp only [System.scaleRow, Function.update_of_ne hi]
  refine ⟨⟨h.solves.scaleRow _ hleft, fun k hk => ?_, fun j hj => ?_, fun j hj i hji hi => ?_⟩,
    ?_, fun i hxi hi => ?_⟩
  · exact (h.regular k hk).scaleRow (inv_ne_zero hpivot) hleft
  · rw [hcolumn j j hj, h.diagonal j hj]
  · rw [hcolumn i j hj, h.below j hj i hji hi]
  · simp only [System.scaleRow, Function.update_self, le_refl, if_true]
    exact inv_mul_cancel₀ hpivot
  · omega

theorem Clearing.addRow (h : Clearing s n solution x row) (hx : x < row) (hrow : row < n) :
    Clearing (s.addRow (-(s.coeff row x)) x row) n solution x (row + 1) := by
  have hother : ∀ i j, i ≠ row → (s.addRow (-(s.coeff row x)) x row).coeff i j = s.coeff i j :=
    fun i j hi => by simp only [System.addRow, Function.update_of_ne hi]
  have htarget : ∀ j, (s.addRow (-(s.coeff row x)) x row).coeff row j =
      s.coeff row j - s.coeff row x * s.coeff x j := fun j => by
    simp only [System.addRow, Function.update_self]
    ring
  refine ⟨⟨h.eliminated.solves.addRow _ (hx.trans hrow),
    fun k hk => (h.eliminated.regular k hk).addRow _ hx, fun j hj => ?_,
    fun j hj i hji hi => ?_⟩, ?_, fun i hxi hi => ?_⟩
  · rw [hother j j (by omega), h.eliminated.diagonal j hj]
  · by_cases hi' : i = row
    · rw [hi', htarget, h.eliminated.below j hj row (hj.trans hx) hrow,
        h.eliminated.below j hj x hj (hx.trans hrow), mul_zero, sub_zero]
    · rw [hother i j hi', h.eliminated.below j hj i hji hi]
  · rw [hother x x hx.ne, h.pivot]
  · by_cases hi' : i = row
    · rw [hi', htarget, h.pivot, mul_one, sub_self]
    · rw [hother i x hi', h.cleared i hxi (by omega)]

theorem Clearing.done (h : Clearing s n solution x n) : Eliminated s n solution (x + 1) where
  solves := h.eliminated.solves
  regular := h.eliminated.regular
  diagonal j hj := by
    rcases Nat.lt_succ_iff_lt_or_eq.mp hj with hlt | rfl
    · exact h.eliminated.diagonal j hlt
    · exact h.pivot
  below j hj i hji hi := by
    rcases Nat.lt_succ_iff_lt_or_eq.mp hj with hlt | rfl
    · exact h.eliminated.below j hlt i hji hi
    · exact h.cleared i hji hi

/-! ## The backward pass -/

/-- The triangular equations with the unknowns from `y` on solved and taken out of the
others. -/
structure Substituted (s : System F M) (n : ℕ) (solution : ℕ → M) (y : ℕ) : Prop where
  diagonal : ∀ j < n, s.coeff j j = 1
  below : ∀ j < n, ∀ i, j < i → i < n → s.coeff i j = 0
  solved : ∀ i, y ≤ i → i < n → s.value i = solution i
  rest : ∀ i < y, s.value i = ∑ j ∈ range y, s.coeff i j • solution j

/-- The unknown `x` in the making: it is taken out of the equations before `row`. -/
structure Substituting (s : System F M) (n : ℕ) (solution : ℕ → M) (x row : ℕ) : Prop where
  diagonal : ∀ j < n, s.coeff j j = 1
  below : ∀ j < n, ∀ i, j < i → i < n → s.coeff i j = 0
  solved : ∀ i, x ≤ i → i < n → s.value i = solution i
  reduced : ∀ i < row, s.value i = ∑ j ∈ range x, s.coeff i j • solution j
  rest : ∀ i, row ≤ i → i < x → s.value i = ∑ j ∈ range (x + 1), s.coeff i j • solution j

theorem Eliminated.substituted (h : Eliminated s n solution n) : Substituted s n solution n where
  diagonal := h.diagonal
  below := h.below
  solved i hge hlt := absurd hge (by omega)
  rest := h.solves

theorem Substituted.next (h : Substituted s n solution (x + 1)) (hx : x < n) :
    Substituting s n solution x 0 where
  diagonal := h.diagonal
  below := h.below
  solved i hge hlt := by
    rcases Nat.eq_or_lt_of_le hge with rfl | hgt
    · rw [h.rest x (Nat.lt_succ_self x), sum_range_succ, h.diagonal x hx, one_smul]
      have hzero : ∑ j ∈ range x, s.coeff x j • solution j = 0 :=
        sum_eq_zero fun j hj => by
          rw [h.below j ((mem_range.mp hj).trans hx) x (mem_range.mp hj) hx, zero_smul]
      rw [hzero, zero_add]
    · exact h.solved i hgt hlt
  reduced i hi := absurd hi i.not_lt_zero
  rest i _ hi := h.rest i (by omega)

theorem Substituting.addValue (h : Substituting s n solution x row) (hrow : row < x)
    (hx : x < n) :
    Substituting (s.addValue (-(s.coeff row x)) x row) n solution x (row + 1) where
  diagonal := h.diagonal
  below := h.below
  solved i hge hlt := by
    simp only [System.addValue, Function.update_of_ne (show i ≠ row by omega)]
    exact h.solved i hge hlt
  reduced i hi := by
    by_cases hi' : i = row
    · subst hi'
      simp only [System.addValue, Function.update_self]
      rw [h.rest i le_rfl hrow, h.solved x le_rfl hx, sum_range_succ, neg_smul,
        add_neg_cancel_right]
    · simp only [System.addValue, Function.update_of_ne hi']
      exact h.reduced i (by omega)
  rest i hge hlt := by
    simp only [System.addValue, Function.update_of_ne (show i ≠ row by omega)]
    exact h.rest i (by omega) hlt

theorem Substituting.done (h : Substituting s n solution x x) : Substituted s n solution x where
  diagonal := h.diagonal
  below := h.below
  solved := h.solved
  rest := h.reduced

end Support.Elimination
