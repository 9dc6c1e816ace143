import Mathlib.Algebra.BigOperators.Group.Finset.Basic
import Mathlib.Algebra.Field.ZMod
/-!
# Parities of the bits of a word

`dot mask v` is the parity of the bits of `v` that `mask` selects.  It is linear in both words,
and a shift of one is the opposite shift of the other, so a linear map of words moves to the
mask.
-/

namespace Support.Parities

variable {w : Nat}

def ofBit (bit : Bool) : ZMod 2 := if bit then 1 else 0

theorem ofBit_xor (a b : Bool) : ofBit (a ^^ b) = ofBit a + ofBit b := by
  cases a <;> cases b <;> rfl

def dot (mask v : BitVec w) : ZMod 2 :=
  ∑ i ∈ Finset.range w, ofBit (mask.getLsbD i) * ofBit (v.getLsbD i)

theorem dot_comm (mask v : BitVec w) : dot mask v = dot v mask :=
  Finset.sum_congr rfl fun _ _ => mul_comm _ _

theorem dot_xor (mask v v' : BitVec w) : dot mask (v ^^^ v') = dot mask v + dot mask v' := by
  unfold dot
  rw [← Finset.sum_add_distrib]
  apply Finset.sum_congr rfl
  intro i _
  rw [BitVec.getLsbD_xor, ofBit_xor, mul_add]

theorem xor_dot (mask mask' v : BitVec w) : dot (mask ^^^ mask') v = dot mask v + dot mask' v := by
  rw [dot_comm, dot_xor, dot_comm v, dot_comm v]

theorem dot_zero (mask : BitVec w) : dot mask 0#w = 0 := by
  apply Finset.sum_eq_zero
  intro i _
  rw [BitVec.getLsbD_zero]
  exact mul_zero _

/-- The bits behind the last one do not count. -/
theorem sum_add (mask v : BitVec w) (k : Nat) :
    ∑ i ∈ Finset.range (w + k), ofBit (mask.getLsbD i) * ofBit (v.getLsbD i) = dot mask v := by
  rw [Finset.sum_range_add, Finset.sum_eq_zero (s := Finset.range k), add_zero, dot]
  intro i _
  rw [BitVec.getLsbD_of_ge mask _ (Nat.le_add_right w i)]
  exact zero_mul _

theorem dot_shiftLeft (mask v : BitVec w) (k : Nat) : dot mask (v <<< k) = dot (mask >>> k) v := by
  have hlow : ∀ i ∈ Finset.range k,
      ofBit (mask.getLsbD i) * ofBit ((v <<< k).getLsbD i) = 0 := by
    intro i hi
    have hbit : (v <<< k).getLsbD i = false := by simp [Finset.mem_range.mp hi]
    rw [hbit]
    exact mul_zero _
  rw [← sum_add mask _ k, Nat.add_comm, Finset.sum_range_add, Finset.sum_eq_zero hlow, zero_add]
  apply Finset.sum_congr rfl
  intro i _
  rw [BitVec.getLsbD_ushiftRight]
  rcases Nat.lt_or_ge (k + i) w with hlt | hge
  · have hnot : ¬k + i < k := Nat.not_lt.mpr (Nat.le_add_right k i)
    rw [BitVec.getLsbD_shiftLeft, decide_eq_true hlt, decide_eq_false hnot,
      Nat.add_sub_cancel_left, Bool.not_false, Bool.true_and, Bool.true_and]
  · rw [BitVec.getLsbD_of_ge mask _ hge]
    exact (zero_mul _).trans (zero_mul _).symm

theorem dot_ushiftRight (mask v : BitVec w) (k : Nat) :
    dot mask (v >>> k) = dot (mask <<< k) v := by
  rw [dot_comm, ← dot_shiftLeft, dot_comm]

end Support.Parities
