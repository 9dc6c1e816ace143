import Mathlib.Data.UInt
/-!
# Machine words as numbers
-/

namespace Support.Words

variable {a : UInt64}

theorem toNat_max (a b : UInt64) : (max a b).toNat = max a.toNat b.toNat := by
  by_cases hle : a ≤ b
  · rw [UInt64.max_def, if_pos hle, Nat.max_eq_right (UInt64.le_iff_toNat_le.mp hle)]
  · have hlt : b.toNat ≤ a.toNat := by
      rw [UInt64.le_iff_toNat_le] at hle
      omega
    rw [UInt64.max_def, if_neg hle, Nat.max_eq_left hlt]

theorem toNat_min (a b : UInt64) : (min a b).toNat = min a.toNat b.toNat := by
  by_cases hle : a ≤ b
  · rw [UInt64.min_def, if_pos hle, Nat.min_eq_left (UInt64.le_iff_toNat_le.mp hle)]
  · have hlt : b.toNat ≤ a.toNat := by
      rw [UInt64.le_iff_toNat_le] at hle
      omega
    rw [UInt64.min_def, if_neg hle, Nat.min_eq_right hlt]

theorem toNat_pos_of_ne (h : a ≠ 0) : 0 < a.toNat := by
  by_contra hnot
  exact h (UInt64.toNat_inj.mp (by simpa using hnot))

theorem toNat_sub_one (h : 0 < a.toNat) : (a - 1).toNat = a.toNat - 1 :=
  UInt64.toNat_sub_of_le _ _ (UInt64.le_iff_toNat_le.mpr h)

theorem toNat_add_one (h : a.toNat + 1 < 2 ^ 64) : (a + 1).toNat = a.toNat + 1 := by
  have hone : (1 : UInt64).toNat = 1 := rfl
  rw [UInt64.toNat_add, hone, Nat.mod_eq_of_lt h]

/-- One bit of a word under its mask. -/
theorem and_twoPow_ne_zero {w : Nat} (b : BitVec w) {k : Nat} (hk : k < w) :
    b &&& BitVec.twoPow w k ≠ 0 ↔ b.getLsbD k = true := by
  rw [BitVec.and_twoPow]
  cases hbit : b.getLsbD k with
  | false => simp
  | true =>
      simp only [if_true, ne_eq, iff_true]
      intro hzero
      have hbits := congrArg (fun v => v.getLsbD k) hzero
      simp [hk] at hbits

end Support.Words
