import MoonlightScarlet.Support.Words
/-!
# Addresses rounded to a power of two
-/

namespace Support.Alignment

open Words

/-- `isPowerOfTwo n` for the numbers of 64 bits. -/
def isPowerOfTwo (n : UInt64) : Bool := (List.range 64).any fun k => n.toNat == 2 ^ k

theorem isPowerOfTwo_iff {n : UInt64} : isPowerOfTwo n = true ↔ ∃ k < 64, n.toNat = 2 ^ k := by
  simp [isPowerOfTwo]

theorem pos_of_isPowerOfTwo {n : UInt64} (h : isPowerOfTwo n = true) : 0 < n.toNat := by
  obtain ⟨k, -, hk⟩ := isPowerOfTwo_iff.mp h
  rw [hk]
  exact Nat.two_pow_pos k

/-- The smaller of two powers of two divides the larger. -/
theorem dvd_of_le {m n : UInt64} (hm : isPowerOfTwo m = true) (hn : isPowerOfTwo n = true)
    (hle : m.toNat ≤ n.toNat) : m.toNat ∣ n.toNat := by
  obtain ⟨j, -, hj⟩ := isPowerOfTwo_iff.mp hm
  obtain ⟨k, -, hk⟩ := isPowerOfTwo_iff.mp hn
  rw [hj, hk] at hle ⊢
  exact Nat.pow_dvd_pow 2 ((Nat.pow_le_pow_iff_right (by omega)).mp hle)

/-- Clear the bits below an alignment. -/
def alignDown (address alignment : UInt64) : UInt64 := address &&& ~~~(alignment - 1)

/-- The bits that a mask keeps and those that it clears make up the number. -/
theorem and_add_and_not (x mask : UInt64) : (x &&& mask) + (x &&& ~~~mask) = x := by
  have hbits : (x &&& mask).toBitVec + (x &&& ~~~mask).toBitVec = x.toBitVec := by
    rw [BitVec.add_eq_or_of_and_eq_zero]
    · ext i
      simp only [UInt64.toBitVec_and, UInt64.toBitVec_not]
      cases hx : x.toBitVec[i] <;> cases hm : mask.toBitVec[i] <;> simp [hx, hm]
    · ext i
      simp only [UInt64.toBitVec_and, UInt64.toBitVec_not]
      cases hx : x.toBitVec[i] <;> cases hm : mask.toBitVec[i] <;> simp [hx, hm]
  exact UInt64.toBitVec_inj.mp (by rw [UInt64.toBitVec_add]; exact hbits)

theorem toNat_alignDown (address : UInt64) {alignment : UInt64}
    (h : isPowerOfTwo alignment = true) :
    (alignDown address alignment).toNat = address.toNat - address.toNat % alignment.toNat := by
  obtain ⟨k, hk, hpow⟩ := isPowerOfTwo_iff.mp h
  have hmask : (alignment - 1).toNat = 2 ^ k - 1 := by
    rw [toNat_sub_one (pos_of_isPowerOfTwo h), hpow]
  have hlow : (address &&& (alignment - 1)).toNat = address.toNat % alignment.toNat := by
    rw [UInt64.toNat_and, hmask, Nat.and_two_pow_sub_one_eq_mod, hpow]
  have hsum := congrArg UInt64.toNat (and_add_and_not address (alignment - 1))
  have hhigh : (address &&& ~~~(alignment - 1)).toNat ≤ address.toNat := by
    rw [UInt64.toNat_and]
    exact Nat.and_le_left
  have hbound := address.toNat_lt
  have hmod := Nat.mod_le address.toNat alignment.toNat
  rw [UInt64.toNat_add, hlow] at hsum
  unfold alignDown
  generalize (address &&& ~~~(alignment - 1)).toNat = high at hsum hhigh ⊢
  generalize address.toNat % alignment.toNat = low at hsum hmod ⊢
  omega

end Support.Alignment
