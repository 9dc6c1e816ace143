import MoonlightScarlet.Support.Elimination
import Mathlib.LinearAlgebra.Lagrange
/-!
# Cauchy matrices

The entries are the inverses of the differences of distinct points, and every square block
is regular: a combination of its columns that vanishes in each row is a polynomial of low
degree with too many zeros.
-/

namespace Support.Cauchy

open Finset Polynomial Lagrange Support.Elimination

variable {F : Type*} [Field F]

/-- The combination of the columns with weights `v`, times all the denominators. -/
noncomputable def combination (q v : ℕ → F) (n : ℕ) : F[X] :=
  ∑ j ∈ range n, C (v j) * nodal ((range n).erase j) q

theorem degree_combination_lt (q v : ℕ → F) (n : ℕ) :
    (combination q v n).degree < #(range n) := by
  refine lt_of_le_of_lt (degree_sum_le _ _) ?_
  rw [Finset.sup_lt_iff (by simp)]
  intro j hj
  calc (C (v j) * nodal ((range n).erase j) q).degree
      ≤ (nodal ((range n).erase j) q).degree := by
        rw [← smul_eq_C_mul]
        exact degree_smul_le _ _
    _ = #((range n).erase j) := degree_nodal
    _ < #(range n) := by
        have hlt := Finset.card_erase_lt_of_mem hj
        exact_mod_cast hlt

theorem eval_combination_row {p q v : ℕ → F} {n i : ℕ}
    (hne : ∀ j < n, p i - q j ≠ 0) :
    (combination q v n).eval (p i) =
      (nodal (range n) q).eval (p i) * ∑ j ∈ range n, (p i - q j)⁻¹ * v j := by
  rw [combination, eval_finsetSum, mul_sum]
  refine sum_congr rfl fun j hj => ?_
  have hj' := hne j (mem_range.mp hj)
  rw [nodal_eq_mul_nodal_erase hj, eval_mul, eval_mul, eval_sub, eval_X, eval_C, eval_C]
  field_simp

theorem eval_combination_column {q v : ℕ → F} {n j : ℕ} (hj : j < n) :
    (combination q v n).eval (q j) = v j * (nodal ((range n).erase j) q).eval (q j) := by
  rw [combination, eval_finsetSum, sum_eq_single j]
  · rw [eval_mul, eval_C]
  · intro i _ hij
    have hmem : j ∈ (range n).erase i := mem_erase.mpr ⟨hij.symm, mem_range.mpr hj⟩
    rw [eval_mul, eval_nodal_at_node hmem, mul_zero]
  · exact fun hnot => absurd (mem_range.mpr hj) hnot

theorem cauchy_regular {p q : ℕ → F} {n : ℕ}
    (hp : Set.InjOn p (range n)) (hq : Set.InjOn q (range n))
    (hne : ∀ i < n, ∀ j < n, p i - q j ≠ 0) :
    Regular (fun i j => (p i - q j)⁻¹) n := by
  intro v hv j hj
  have hzero : combination q v n = 0 := by
    refine eq_zero_of_degree_lt_of_eval_index_eq_zero _ hp
      (degree_combination_lt q v n) fun i hi => ?_
    rw [eval_combination_row (hne i (mem_range.mp hi)), hv i (mem_range.mp hi), mul_zero]
  have hcolumn := eval_combination_column (q := q) (v := v) hj
  rw [hzero, eval_zero] at hcolumn
  refine (mul_eq_zero.mp hcolumn.symm).resolve_right (eval_nodal_not_at_node fun i hi heq => ?_)
  rw [mem_erase, mem_range] at hi
  exact hi.1 (hq (mem_coe.mpr (mem_range.mpr hi.2)) (mem_coe.mpr (mem_range.mpr hj)) heq.symm)

end Support.Cauchy
