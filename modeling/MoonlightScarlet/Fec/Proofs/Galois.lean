import MoonlightScarlet.Fec.ReedSolomon
import MoonlightScarlet.Support.Logarithms
import Mathlib
/-!
# The bytes as a field

Exclusive or is the addition, and the tables of powers and logarithms are those of one
generator: each power is the one before shifted by a bit and reduced.  So the bytes are a
field, and the row operations are its linear operations.
-/

namespace MoonlightScarlet.Fec

open Tables Support.Logarithms

/-- A byte as an element of the field. -/
@[ext] structure Galois where
  byte : UInt8
deriving DecidableEq

namespace Galois

instance : Add Galois := ⟨fun a b => ⟨a.byte ^^^ b.byte⟩⟩
instance : Zero Galois := ⟨⟨0⟩⟩
instance : Neg Galois := ⟨fun a => a⟩

instance : AddCommGroup Galois where
  nsmul := nsmulRec
  zsmul := zsmulRec
  add_assoc a b c := Galois.ext (UInt8.xor_assoc a.byte b.byte c.byte)
  add_comm a b := Galois.ext (UInt8.xor_comm a.byte b.byte)
  zero_add _ := Galois.ext UInt8.zero_xor
  add_zero _ := Galois.ext UInt8.xor_zero
  neg_add_cancel _ := Galois.ext UInt8.xor_self

theorem mk_xor (a b : UInt8) : (⟨a ^^^ b⟩ : Galois) = ⟨a⟩ + ⟨b⟩ := rfl

theorem mk_eq_zero {a : UInt8} : (⟨a⟩ : Galois) = 0 ↔ a = 0 := by
  constructor
  · exact congrArg byte
  · rintro rfl
    rfl

/-! ## The powers of the generator -/

/-- Multiplication by the generator: a bit that leaves the byte is reduced by the
polynomial. -/
def double (a : UInt8) : UInt8 := (a <<< 1) ^^^ (if a.toBitVec.msb then 29 else 0)

theorem double_xor (a b : UInt8) : double (a ^^^ b) = double a ^^^ double b := by
  have hcarry : ∀ p q : Bool, (if p ^^ q then (29 : UInt8) else 0) =
      (if p then 29 else 0) ^^^ (if q then 29 else 0) := by decide
  simp only [double, UInt8.shiftLeft_xor, UInt8.toBitVec_xor, BitVec.msb_xor, hcarry]
  exact congrArg byte (add_add_add_comm (⟨a <<< 1⟩ : Galois) ⟨b <<< 1⟩ ⟨_⟩ ⟨_⟩)

def doubleHom : Galois →+ Galois where
  toFun a := ⟨double a.byte⟩
  map_zero' := rfl
  map_add' a b := Galois.ext (double_xor a.byte b.byte)

/-- The table of powers is the orbit of one under doubling. -/
theorem exp_chain : gf2_8Exp.IsChain fun a b => b = double a := by decide +kernel

theorem length_exp : gf2_8Exp.length = 510 := by decide +kernel

/-- Each element but zero has its logarithm below the order, and is the power it names. -/
theorem log_spec : ∀ a : Fin 256, a ≠ 0 →
    (gf2_8Log.getD a 0).toNat < 255 ∧
      (gf2_8Exp.getD (gf2_8Log.getD a 0).toNat 0).toNat = a := by decide +kernel

theorem exp_order : gf2_8Exp.getD 255 0 = 1 := by decide +kernel

theorem mul_inverse : ∀ a : Fin 256, a ≠ 0 →
    gf2_8Mul (UInt8.ofNat a) (inverse (UInt8.ofNat a)) = 1 := by decide +kernel

theorem exp_iterate {n : ℕ} (hn : n < gf2_8Exp.length) :
    doubleHom^[n] ⟨1⟩ = ⟨gf2_8Exp.getD n 0⟩ := by
  induction n with
  | zero => rfl
  | succ n ih =>
      have hstep := List.isChain_iff_getElem.mp exp_chain n hn
      rw [Function.iterate_succ_apply', ih (by omega), List.getD_eq_getElem _ _ hn,
        List.getD_eq_getElem _ _ (by omega), hstep]
      rfl

/-- The logarithm that the table gives. -/
def log (a : Galois) : ℕ := (gf2_8Log.getD a.byte.toNat 0).toNat

theorem log_byte {a : Galois} (ha : a ≠ 0) :
    log a < 255 ∧ (⟨gf2_8Exp.getD (log a) 0⟩ : Galois) = a := by
  have hne : (⟨a.byte.toNat, a.byte.toNat_lt⟩ : Fin 256) ≠ 0 := by
    intro hzero
    exact ha (Galois.ext (UInt8.toNat_inj.mp (Fin.val_eq_of_eq hzero)))
  obtain ⟨hlt, hexp⟩ := log_spec _ hne
  exact ⟨hlt, Galois.ext (UInt8.toNat_inj.mp hexp)⟩

/-- The tables as powers and logarithms. -/
def table : LogTable Galois where
  one := ⟨1⟩
  shift := doubleHom
  log := log
  order := 255
  one_ne_zero := by decide
  order_pos := by decide
  shift_order := by
    rw [exp_iterate (by rw [length_exp]; decide), exp_order]
  shift_log a ha := by
    obtain ⟨hlt, hexp⟩ := log_byte ha
    rw [exp_iterate (by rw [length_exp]; omega), hexp]

instance : Field Galois := table.field

theorem mk_one : (⟨1⟩ : Galois) = 1 := rfl

/-- The entries of the multiplication table are the products. -/
theorem mk_mul (a b : UInt8) : (⟨gf2_8Mul a b⟩ : Galois) = ⟨a⟩ * ⟨b⟩ := by
  have hmul : (⟨a⟩ : Galois) * ⟨b⟩ = table.mul ⟨a⟩ ⟨b⟩ := rfl
  rw [hmul, LogTable.mul, gf2_8Mul]
  simp only [mk_eq_zero]
  split
  case isTrue => rfl
  case isFalse hne =>
    rw [not_or, ← mk_eq_zero, ← mk_eq_zero (a := b)] at hne
    have ha : (gf2_8Log.getD a.toNat 0).toNat < 255 := (log_byte hne.1).1
    have hb : (gf2_8Log.getD b.toNat 0).toNat < 255 := (log_byte hne.2).1
    exact (exp_iterate (by rw [length_exp]; omega)).symm

/-- The entries of the table of inverses are the inverses. -/
theorem mk_inverse (a : UInt8) : (⟨inverse a⟩ : Galois) = (⟨a⟩ : Galois)⁻¹ := by
  by_cases ha : a = 0
  · rw [ha]
    exact inv_zero.symm
  · have hne : (⟨a.toNat, a.toNat_lt⟩ : Fin 256) ≠ 0 := fun hzero =>
      ha (UInt8.toNat_inj.mp (Fin.val_eq_of_eq hzero))
    have hone := mul_inverse _ hne
    rw [UInt8.ofNat_toNat] at hone
    exact eq_inv_of_mul_eq_one_right (by rw [← mk_mul, hone, mk_one])

theorem neg_eq (a : Galois) : -a = a := rfl

theorem add_self {ι : Type*} (row : ι → Galois) : row + row = 0 :=
  funext fun _ => Galois.ext UInt8.xor_self

end Galois

/-! ## The row operations -/

/-- A row of bytes as a vector. -/
def vector {ι : Type*} (row : ι → UInt8) : ι → Galois := fun k => ⟨row k⟩

section Rows

variable {ι : Type*}

theorem vector_injective : Function.Injective (vector (ι := ι)) := fun _ _ h =>
  funext fun k => congrArg Galois.byte (congrFun h k)

theorem vector_axpy (a b : ι → UInt8) (u : UInt8) :
    vector (axpy a b u) = vector a + (⟨u⟩ : Galois) • vector b := by
  funext k
  rw [Pi.add_apply, Pi.smul_apply, smul_eq_mul]
  simp only [axpy]
  split
  case isTrue hzero =>
    rw [hzero, Galois.mk_eq_zero.mpr rfl, zero_mul, add_zero]
  case isFalse =>
    split
    case isTrue hone => rw [hone, Galois.mk_one, one_mul]; rfl
    case isFalse => exact congrArg (vector a k + ·) (Galois.mk_mul u (b k))

theorem vector_scal (a : ι → UInt8) {u : UInt8} (hu : (⟨u⟩ : Galois) ≠ 0) :
    vector (scal a u) = (⟨u⟩ : Galois) • vector a := by
  funext k
  rw [Pi.smul_apply, smul_eq_mul]
  simp only [scal]
  split
  case isTrue hlt =>
    have hone : u = 1 := by
      have hne : u ≠ 0 := fun hzero => hu (Galois.mk_eq_zero.mpr hzero)
      rw [UInt8.lt_iff_toNat_lt] at hlt
      rw [← UInt8.toNat_inj.ne] at hne
      apply UInt8.toNat_inj.mp
      simp only [UInt8.reduceToNat] at hlt hne ⊢
      omega
    rw [hone, Galois.mk_one, one_mul]
  case isFalse => exact Galois.mk_mul u (a k)

end Rows

end MoonlightScarlet.Fec
