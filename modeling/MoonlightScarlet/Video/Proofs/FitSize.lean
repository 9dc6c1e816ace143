import Mathlib.Data.UInt
import MoonlightScarlet.Support.AspectFit
import MoonlightScarlet.Video.FitSize
/-!
# The fitted size

The machine arithmetic of `fit_size` is exact at every size, so the two sides are those
of `Support.AspectFit`.
-/

namespace MoonlightScarlet.Video

open Support.AspectFit

variable {sw sh dw dh : UInt32}

/-- The 64-bit product of two 32-bit sides does not wrap. -/
theorem toNat_product (a b : UInt32) :
    (a.toUInt64 * b.toUInt64).toNat = a.toNat * b.toNat := by
  rw [UInt64.toNat_mul, UInt32.toNat_toUInt64, UInt32.toNat_toUInt64]
  refine Nat.mod_eq_of_lt ?_
  calc
    a.toNat * b.toNat < 2 ^ 32 * 2 ^ 32 := Nat.mul_lt_mul'' a.toNat_lt b.toNat_lt
    _ = 2 ^ 64 := (Nat.pow_add 2 32 32).symm

theorem product_le_iff (a b c d : UInt32) :
    a.toUInt64 * b.toUInt64 ≤ c.toUInt64 * d.toUInt64 ↔
      a.toNat * b.toNat ≤ c.toNat * d.toNat := by
  rw [UInt64.le_iff_toNat_le, toNat_product, toNat_product]

/-- The branch that divides is taken only when the quotient fits. -/
theorem toNat_quotient {a b c d : UInt32} (h : a.toNat * b.toNat ≤ d.toNat * c.toNat) :
    (a.toUInt64 * b.toUInt64 / c.toUInt64).toUInt32.toNat = a.toNat * b.toNat / c.toNat := by
  have hle : a.toNat * b.toNat / c.toNat ≤ d.toNat := quotient_le_of_long h
  rw [UInt64.toNat_toUInt32, UInt64.toNat_div, toNat_product, UInt32.toNat_toUInt64]
  exact Nat.mod_eq_of_lt (Nat.lt_of_le_of_lt hle d.toNat_lt)

theorem toNat_max_one (a : UInt32) : (max a 1).toNat = max 1 a.toNat := by
  have hone : (1 : UInt32).toNat = 1 := rfl
  by_cases hle : a ≤ 1
  · have hnat : a.toNat ≤ 1 := UInt32.le_iff_toNat_le.mp hle
    rw [UInt32.max_def, if_pos hle, hone, Nat.max_eq_left hnat]
  · have hnat : 1 ≤ a.toNat := by
      rw [UInt32.le_iff_toNat_le] at hle
      omega
    rw [UInt32.max_def, if_neg hle, Nat.max_eq_right hnat]

theorem toNat_pos {a : UInt32} (h : a ≠ 0) : 0 < a.toNat :=
  Nat.pos_of_ne_zero fun hzero => h (UInt32.toNat_inj.mp hzero)

/-- One of the sides is zero. -/
def NoPixels (sw sh dw dh : UInt32) : Prop := sw = 0 ∨ sh = 0 ∨ dw = 0 ∨ dh = 0

theorem fitSize_noPixels (h : NoPixels sw sh dw dh) : fitSize sw sh dw dh = (0, 0) := if_pos h

theorem sides_pos (h : ¬NoPixels sw sh dw dh) :
    0 < sw.toNat ∧ 0 < sh.toNat ∧ 0 < dw.toNat ∧ 0 < dh.toNat := by
  simp only [NoPixels, not_or] at h
  obtain ⟨hsw, hsh, hdw, hdh⟩ := h
  exact ⟨toNat_pos hsw, toNat_pos hsh, toNat_pos hdw, toNat_pos hdh⟩

theorem fitSize_toNat (h : ¬NoPixels sw sh dw dh) :
    (fitSize sw sh dw dh).1.toNat = side dw.toNat dh.toNat sw.toNat sh.toNat ∧
      (fitSize sw sh dw dh).2.toNat = side dh.toNat dw.toNat sh.toNat sw.toNat := by
  obtain ⟨hsw, hsh, hdw, hdh⟩ := sides_pos h
  have hsides : ¬(sw = 0 ∨ sh = 0 ∨ dw = 0 ∨ dh = 0) := h
  rw [fitSize, if_neg hsides]
  dsimp only
  by_cases hlimited : dw.toUInt64 * sh.toUInt64 ≤ dh.toUInt64 * sw.toUInt64
  · have hnat := (product_le_iff dw sh dh sw).mp hlimited
    rw [if_pos hlimited]
    dsimp only
    rw [side_of_short hsh hnat, side_of_long hdh hnat, toNat_max_one, toNat_quotient hnat]
    exact ⟨rfl, rfl⟩
  · have hnat : dh.toNat * sw.toNat ≤ dw.toNat * sh.toNat := by
      rw [product_le_iff] at hlimited
      exact Nat.le_of_not_le hlimited
    rw [if_neg hlimited]
    dsimp only
    rw [side_of_long hdw hnat, side_of_short hsw hnat, toNat_max_one, toNat_quotient hnat]
    exact ⟨rfl, rfl⟩

/-- The size of the picture inside a destination, as it would be over the integers. -/
structure Fitted (sw sh dw dh : Nat) (size : UInt32 × UInt32) : Prop where
  width : size.1.toNat = min dw (max 1 (dh * sw / sh))
  height : size.2.toNat = min dh (max 1 (dw * sh / sw))
  width_inside : 1 ≤ size.1.toNat ∧ size.1.toNat ≤ dw
  height_inside : 1 ≤ size.2.toNat ∧ size.2.toNat ≤ dh
  fills : (size.1.toNat = dw ∧ Within size.2.toNat (dw * sh) sw) ∨
    (size.2.toNat = dh ∧ Within size.1.toNat (dh * sw) sh)

theorem fitSize_fitted (h : ¬NoPixels sw sh dw dh) :
    Fitted sw.toNat sh.toNat dw.toNat dh.toNat (fitSize sw sh dw dh) := by
  obtain ⟨hsw, hsh, hdw, hdh⟩ := sides_pos h
  obtain ⟨hwidth, hheight⟩ := fitSize_toNat h
  constructor
  case width => exact hwidth
  case height => exact hheight
  case width_inside =>
    rw [hwidth]
    exact ⟨one_le_side hdw, side_le⟩
  case height_inside =>
    rw [hheight]
    exact ⟨one_le_side hdh, side_le⟩
  case fills =>
    rw [hwidth, hheight]
    exact side_fills hdw hdh hsw hsh

theorem fitSize_le (sw sh dw dh : UInt32) :
    (fitSize sw sh dw dh).1 ≤ dw ∧ (fitSize sw sh dw dh).2 ≤ dh := by
  rw [UInt32.le_iff_toNat_le, UInt32.le_iff_toNat_le]
  by_cases h : NoPixels sw sh dw dh
  · rw [fitSize_noPixels h]
    exact ⟨Nat.zero_le _, Nat.zero_le _⟩
  · have hfit := fitSize_fitted h
    exact ⟨hfit.width_inside.2, hfit.height_inside.2⟩

theorem fitSize_mono (sw sh : UInt32) {dw dh dw' dh' : UInt32} (hdw : dw ≤ dw')
    (hdh : dh ≤ dh') :
    (fitSize sw sh dw dh).1 ≤ (fitSize sw sh dw' dh').1 ∧
      (fitSize sw sh dw dh).2 ≤ (fitSize sw sh dw' dh').2 := by
  rw [UInt32.le_iff_toNat_le] at hdw hdh
  rw [UInt32.le_iff_toNat_le, UInt32.le_iff_toNat_le]
  by_cases h : NoPixels sw sh dw dh
  · rw [fitSize_noPixels h]
    exact ⟨Nat.zero_le _, Nat.zero_le _⟩
  · have hlarger : ¬NoPixels sw sh dw' dh' := by
      obtain ⟨hsw, hsh, hpos, hpos'⟩ := sides_pos h
      simp only [NoPixels, ← UInt32.toNat_inj, UInt32.toNat_zero]
      omega
    obtain ⟨hwidth, hheight⟩ := fitSize_toNat h
    obtain ⟨hwidth', hheight'⟩ := fitSize_toNat hlarger
    rw [hwidth, hheight, hwidth', hheight']
    exact ⟨side_mono hdw hdh, side_mono hdh hdw⟩

/-- Turning the source and the destination turns the picture. -/
theorem fitSize_swap (sw sh dw dh : UInt32) :
    fitSize sh sw dh dw = ((fitSize sw sh dw dh).2, (fitSize sw sh dw dh).1) := by
  have hturned : NoPixels sh sw dh dw ↔ NoPixels sw sh dw dh := by
    unfold NoPixels
    tauto
  by_cases h : NoPixels sw sh dw dh
  · rw [fitSize_noPixels h, fitSize_noPixels (hturned.mpr h)]
  · obtain ⟨hwidth, hheight⟩ := fitSize_toNat h
    obtain ⟨hwidth', hheight'⟩ := fitSize_toNat (mt hturned.mp h)
    refine Prod.ext (UInt32.toNat_inj.mp ?_) (UInt32.toNat_inj.mp ?_)
    · exact hwidth'.trans hheight.symm
    · exact hheight'.trans hwidth.symm

theorem fit_size_exact (sw sh dw dh : UInt32) :
    (NoPixels sw sh dw dh → fitSize sw sh dw dh = (0, 0)) ∧
    (¬NoPixels sw sh dw dh →
      Fitted sw.toNat sh.toNat dw.toNat dh.toNat (fitSize sw sh dw dh)) ∧
    -- the products and, on the branch that takes it, each quotient
    ((dw.toUInt64 * sh.toUInt64).toNat = dw.toNat * sh.toNat ∧
      (dh.toUInt64 * sw.toUInt64).toNat = dh.toNat * sw.toNat ∧
      (dw.toUInt64 * sh.toUInt64 ≤ dh.toUInt64 * sw.toUInt64 →
        (dw.toUInt64 * sh.toUInt64 / sw.toUInt64).toUInt32.toNat =
          dw.toNat * sh.toNat / sw.toNat) ∧
      (¬dw.toUInt64 * sh.toUInt64 ≤ dh.toUInt64 * sw.toUInt64 →
        (dh.toUInt64 * sw.toUInt64 / sh.toUInt64).toUInt32.toNat =
          dh.toNat * sw.toNat / sh.toNat)) ∧
    -- the margins that centre the picture
    ((dw - (fitSize sw sh dw dh).1).toNat = dw.toNat - (fitSize sw sh dw dh).1.toNat ∧
      (dh - (fitSize sw sh dw dh).2).toNat = dh.toNat - (fitSize sw sh dw dh).2.toNat ∧
      (fitSize sw sh dw dh).1 ≤ dw ∧ (fitSize sw sh dw dh).2 ≤ dh) ∧
    (∀ dw' dh', dw ≤ dw' → dh ≤ dh' →
      (fitSize sw sh dw dh).1 ≤ (fitSize sw sh dw' dh').1 ∧
        (fitSize sw sh dw dh).2 ≤ (fitSize sw sh dw' dh').2) ∧
    fitSize sh sw dh dw = ((fitSize sw sh dw dh).2, (fitSize sw sh dw dh).1) := by
  obtain ⟨hwidth, hheight⟩ := fitSize_le sw sh dw dh
  refine ⟨fitSize_noPixels, fitSize_fitted, ?_,
    ⟨UInt32.toNat_sub_of_le _ _ hwidth, UInt32.toNat_sub_of_le _ _ hheight, hwidth, hheight⟩,
    fun dw' dh' hdw hdh => fitSize_mono sw sh hdw hdh, fitSize_swap sw sh dw dh⟩
  refine ⟨toNat_product dw sh, toNat_product dh sw, fun hlimited => ?_, fun hlimited => ?_⟩
  · exact toNat_quotient ((product_le_iff dw sh dh sw).mp hlimited)
  · rw [product_le_iff] at hlimited
    exact toNat_quotient (Nat.le_of_not_le hlimited)

end MoonlightScarlet.Video
