import Mathlib.Algebra.Group.Nat.Defs
import Mathlib.Logic.Function.Iterate
/-!
# Words from their low bits

A map of words delays by `k` places when each bit of its result depends only on bits that are
at least `k` places lower.  It reaches a fixed point from every word, so it has only one.
-/

namespace Support.LowBits

variable {w n k : Nat} {a b c d : BitVec w} {f : BitVec w → BitVec w}

/-- The lowest `n` bits are the same. -/
def Agree (n : Nat) (a b : BitVec w) : Prop := ∀ i < n, a.getLsbD i = b.getLsbD i

theorem Agree.zero (a b : BitVec w) : Agree 0 a b := nofun

theorem Agree.eq (h : Agree n a b) (hn : w ≤ n) : a = b := by
  apply BitVec.eq_of_getLsbD_eq
  intro i hi
  exact h i (Nat.lt_of_lt_of_le hi hn)

theorem Agree.xor (h : Agree n a b) (h' : Agree n c d) : Agree n (a ^^^ c) (b ^^^ d) := by
  intro i hi
  rw [BitVec.getLsbD_xor, BitVec.getLsbD_xor, h i hi, h' i hi]

theorem Agree.refl (n : Nat) (a : BitVec w) : Agree n a a := fun _ _ => rfl

theorem Agree.mono {m : Nat} (h : Agree n a b) (hm : m ≤ n) : Agree m a b :=
  fun i hi => h i (Nat.lt_of_lt_of_le hi hm)

theorem Agree.shiftLeft (h : Agree n a b) (k : Nat) : Agree (n + k) (a <<< k) (b <<< k) := by
  intro i hi
  rcases Nat.lt_or_ge i k with hlow | hhigh
  · have hzero (v : BitVec w) : (v <<< k).getLsbD i = false := by simp [hlow]
    rw [hzero, hzero]
  · have hlower := h (i - k) (by omega)
    rw [BitVec.getLsbD_shiftLeft, BitVec.getLsbD_shiftLeft, hlower]

/-- The lowest `k` bits and the others make up the word. -/
theorem low_xor_high (v : BitVec w) (k : Nat) :
    BitVec.ofNat w (v.toNat % 2 ^ k) ^^^ ((v >>> k) <<< k) = v := by
  apply BitVec.eq_of_getLsbD_eq
  intro i hi
  rw [BitVec.getLsbD_xor, BitVec.getLsbD_ofNat, BitVec.getLsbD_shiftLeft,
    BitVec.getLsbD_ushiftRight, Nat.testBit_mod_two_pow, BitVec.testBit_toNat]
  rcases Nat.lt_or_ge i k with hlow | hhigh
  · simp [hi, hlow]
  · rw [decide_eq_false (Nat.not_lt.mpr hhigh), Nat.add_sub_cancel' hhigh]
    simp [hi]

def Delays (k : Nat) (f : BitVec w → BitVec w) : Prop :=
  ∀ n a b, Agree n a b → Agree (n + k) (f a) (f b)

theorem Delays.iterate (h : Delays k f) (m : Nat) (a b : BitVec w) :
    Agree (m * k) (f^[m] a) (f^[m] b) := by
  induction m with
  | zero =>
      rw [Nat.zero_mul]
      exact .zero a b
  | succ m ih =>
      rw [Nat.succ_mul, Function.iterate_succ_apply', Function.iterate_succ_apply']
      exact h _ _ _ ih

/-- A fixed point is reached from any word. -/
theorem Delays.fixed (h : Delays k f) {m : Nat} (hm : w ≤ m * k) (hfixed : f a = a)
    (b : BitVec w) : a = f^[m] b := by
  calc a = f^[m] a := (Function.iterate_fixed hfixed m).symm
    _ = f^[m] b := (h.iterate m a b).eq hm

end Support.LowBits
