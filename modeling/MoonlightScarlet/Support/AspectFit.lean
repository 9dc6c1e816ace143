import Mathlib.Data.Nat.Notation
/-!
# Fitting a ratio into a box

The largest box with the ratio of a source that fits into a destination, in whole
pixels and with at least one pixel on each side.
-/

namespace Support.AspectFit

/-- One side of the fitted box: `own` is that side of the destination and `source` that of
the source. -/
def side (own other source otherSource : Nat) : Nat :=
  min own (max 1 (other * source / otherSource))

variable {own other source otherSource : Nat}

theorem side_le : side own other source otherSource ≤ own := Nat.min_le_left _ _

theorem one_le_side (hown : 0 < own) : 1 ≤ side own other source otherSource :=
  Nat.le_min.mpr ⟨hown, Nat.le_max_left _ _⟩

theorem side_mono {own' other' : Nat} (hown : own ≤ own') (hother : other ≤ other') :
    side own other source otherSource ≤ side own' other' source otherSource := by
  have hquotient : other * source / otherSource ≤ other' * source / otherSource :=
    Nat.div_le_div_right (Nat.mul_le_mul_right _ hother)
  unfold side
  omega

/-- The side that is short for the ratio is filled. -/
theorem side_of_short (hsource : 0 < otherSource) (hshort : own * otherSource ≤ other * source) :
    side own other source otherSource = own := by
  have hquotient : own ≤ other * source / otherSource :=
    (Nat.le_div_iff_mul_le hsource).mpr hshort
  exact Nat.min_eq_left (Nat.le_trans hquotient (Nat.le_max_right _ _))

theorem quotient_le_of_long (hlong : other * source ≤ own * otherSource) :
    other * source / otherSource ≤ own :=
  Nat.div_le_of_le_mul (Nat.mul_comm own otherSource ▸ hlong)

theorem side_of_long (hown : 0 < own) (hlong : other * source ≤ own * otherSource) :
    side own other source otherSource = max 1 (other * source / otherSource) :=
  Nat.min_eq_right (Nat.max_le.mpr ⟨hown, quotient_le_of_long hlong⟩)

/-- `length` differs from `exact / unit` by less than one. -/
def Within (length exact unit : Nat) : Prop :=
  length * unit < exact + unit ∧ exact < length * unit + unit

theorem within_max_one {exact unit : Nat} (hexact : 0 < exact) (hunit : 0 < unit) :
    Within (max 1 (exact / unit)) exact unit := by
  have hfloor : exact / unit * unit ≤ exact := Nat.div_mul_le_self exact unit
  have hceil : exact < exact / unit * unit + unit := Nat.lt_div_mul_add hunit
  rcases Nat.eq_zero_or_pos (exact / unit) with hzero | hpos
  · rw [hzero, Nat.zero_mul] at hceil
    rw [hzero, Nat.max_eq_left (Nat.zero_le 1), Within, Nat.one_mul]
    omega
  · rw [Nat.max_eq_right hpos, Within]
    omega

/-- One side is filled, and the other is less than one pixel from the ratio. -/
theorem side_fills (hown : 0 < own) (hother : 0 < other) (hsource : 0 < source)
    (hotherSource : 0 < otherSource) :
    (side own other source otherSource = own ∧
        Within (side other own otherSource source) (own * otherSource) source) ∨
      (side other own otherSource source = other ∧
        Within (side own other source otherSource) (other * source) otherSource) := by
  rcases Nat.le_total (own * otherSource) (other * source) with hshort | hlong
  · refine .inl ⟨side_of_short hotherSource hshort, ?_⟩
    rw [side_of_long hother hshort]
    exact within_max_one (Nat.mul_pos hown hotherSource) hsource
  · refine .inr ⟨side_of_short hsource hlong, ?_⟩
    rw [side_of_long hown hlong]
    exact within_max_one (Nat.mul_pos hother hsource) hotherSource

end Support.AspectFit
