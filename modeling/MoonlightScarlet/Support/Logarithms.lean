import Mathlib.Algebra.Field.Defs
import Mathlib.Algebra.Group.Hom.Basic
import Mathlib.Logic.Function.Iterate
/-!
# Fields with a table of logarithms

An additive group in which one additive map, started at one element, runs through every
element other than zero is a field: the map is the multiplication by a generator, and a
product is taken by adding logarithms.
-/

namespace Support.Logarithms

/-- A group with the multiplication by a generator and the logarithms to that generator. -/
structure LogTable (A : Type*) [AddCommGroup A] where
  one : A
  shift : A →+ A
  log : A → ℕ
  order : ℕ
  one_ne_zero : one ≠ 0
  order_pos : 0 < order
  shift_order : shift^[order] one = one
  shift_log : ∀ a, a ≠ 0 → shift^[log a] one = a

namespace LogTable

variable {A : Type*} [AddCommGroup A] (t : LogTable A)

/-- The powers of the generator. -/
def exp (n : ℕ) : A := t.shift^[n] t.one

theorem exp_log {a : A} (ha : a ≠ 0) : t.exp (t.log a) = a := t.shift_log a ha

@[simp] theorem exp_zero : t.exp 0 = t.one := rfl

theorem exp_add (m n : ℕ) : t.exp (m + n) = t.shift^[m] (t.exp n) :=
  Function.iterate_add_apply _ m n _

theorem iterate_zero (n : ℕ) : t.shift^[n] 0 = 0 := iterate_map_zero t.shift n

theorem iterate_add (n : ℕ) (a b : A) :
    t.shift^[n] (a + b) = t.shift^[n] a + t.shift^[n] b := iterate_map_add t.shift n a b

theorem exp_mul_order (k : ℕ) : t.exp (t.order * k) = t.one := by
  induction k with
  | zero => rfl
  | succ k ih => rw [Nat.mul_succ, Nat.add_comm, exp_add, ih, t.shift_order]

variable [DecidableEq A]

/-- Multiplication by adding logarithms. -/
def mul (a b : A) : A := if a = 0 ∨ b = 0 then 0 else t.exp (t.log a + t.log b)

/-- The power that takes the logarithm of `a` to a multiple of the order. -/
def inv (a : A) : A := if a = 0 then 0 else t.exp ((t.order - 1) * t.log a)

/-- A product as an iterated shift of its second factor. -/
theorem mul_eq_iterate {a : A} (ha : a ≠ 0) (b : A) : t.mul a b = t.shift^[t.log a] b := by
  by_cases hb : b = 0
  · rw [mul, if_pos (Or.inr hb), hb, iterate_zero]
  · rw [mul, if_neg (not_or.mpr ⟨ha, hb⟩), exp_add, t.exp_log hb]

theorem zero_mul' (b : A) : t.mul 0 b = 0 := if_pos (Or.inl rfl)

theorem mul_comm' (a b : A) : t.mul a b = t.mul b a := by
  simp only [mul, or_comm, Nat.add_comm]

theorem exp_mul (n : ℕ) (b : A) : t.mul (t.exp n) b = t.shift^[n] b := by
  by_cases hb : b = 0
  · rw [hb, mul_comm', zero_mul', iterate_zero]
  · calc t.mul (t.exp n) b = t.mul b (t.exp n) := t.mul_comm' _ _
      _ = t.shift^[t.log b] (t.exp n) := t.mul_eq_iterate hb _
      _ = t.exp (n + t.log b) := by rw [← exp_add, Nat.add_comm]
      _ = t.shift^[n] b := by rw [exp_add, t.exp_log hb]

theorem mul_add' (a b c : A) : t.mul a (b + c) = t.mul a b + t.mul a c := by
  by_cases ha : a = 0
  · simp only [ha, zero_mul', add_zero]
  · simp only [t.mul_eq_iterate ha, iterate_add]

theorem one_mul' (a : A) : t.mul t.one a = a := t.exp_mul 0 a

theorem mul_assoc' (a b c : A) : t.mul (t.mul a b) c = t.mul a (t.mul b c) := by
  by_cases ha : a = 0
  · simp only [ha, zero_mul']
  by_cases hb : b = 0
  · rw [hb, mul_comm' t a, zero_mul', zero_mul', mul_comm', zero_mul']
  have hab : t.mul a b = t.exp (t.log a + t.log b) := if_neg (not_or.mpr ⟨ha, hb⟩)
  rw [hab, exp_mul, t.mul_eq_iterate ha, t.mul_eq_iterate hb, Function.iterate_add_apply]

theorem mul_inv' {a : A} (ha : a ≠ 0) : t.mul a (t.inv a) = t.one := by
  rw [inv, if_neg ha, t.mul_eq_iterate ha, ← exp_add]
  have hsum : t.log a + (t.order - 1) * t.log a = t.order * t.log a := by
    rw [Nat.add_comm, ← Nat.succ_mul, Nat.succ_eq_add_one, Nat.sub_add_cancel t.order_pos]
  rw [hsum, exp_mul_order]

/-- The field of the table. -/
abbrev field : Field A where
  __ := (inferInstance : AddCommGroup A)
  mul := t.mul
  one := t.one
  inv := t.inv
  left_distrib := t.mul_add'
  right_distrib a b c := by
    change t.mul (a + b) c = t.mul a c + t.mul b c
    rw [mul_comm' t _ c, mul_add', mul_comm' t c, mul_comm' t c]
  zero_mul := t.zero_mul'
  mul_zero a := (t.mul_comm' a 0).trans (t.zero_mul' a)
  mul_assoc := t.mul_assoc'
  one_mul := t.one_mul'
  mul_one a := (t.mul_comm' a t.one).trans (t.one_mul' a)
  mul_comm := t.mul_comm'
  exists_pair_ne := ⟨t.one, 0, t.one_ne_zero⟩
  mul_inv_cancel a ha := t.mul_inv' ha
  inv_zero := if_pos rfl
  nnqsmul := _
  nnqsmul_def := fun _ _ => rfl
  qsmul := _
  qsmul_def := fun _ _ => rfl

end LogTable

end Support.Logarithms
