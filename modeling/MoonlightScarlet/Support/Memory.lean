import Mathlib.Algebra.Group.Nat.Defs
import Mathlib.Data.List.Basic
import Mathlib.Data.List.Range
/-!
# Memories as functions

A memory is a function of the address.  `write` stores a list of cells from an
address on and `read` loads one; a write is seen where it was made and nowhere
else.  Numbers are stored with their lowest byte first.
-/

namespace Support.Memory

variable {β : Type*}

abbrev Mem (β : Type*) := Nat → β

/-- `memcpy` to `start`. -/
def write (m : Mem β) (start : Nat) (cells : List β) : Mem β := fun i =>
  if i < start then m i else (cells[i - start]?).getD (m i)

def read (m : Mem β) (start length : Nat) : List β :=
  (List.range length).map fun i => m (start + i)

@[simp] theorem length_read (m : Mem β) (start length : Nat) :
    (read m start length).length = length := by
  simp [read]

@[simp] theorem write_nil (m : Mem β) (start : Nat) : write m start [] = m := by
  funext i
  simp [write]

theorem write_outside {m : Mem β} {start : Nat} {cells : List β} {i : Nat}
    (h : i < start ∨ start + cells.length ≤ i) : write m start cells i = m i := by
  by_cases hlt : i < start
  · exact if_pos hlt
  · have hnone : cells[i - start]? = none := List.getElem?_eq_none (by omega)
    rw [write, if_neg hlt, hnone, Option.getD_none]

theorem write_inside {m : Mem β} {start : Nat} {cells : List β} {i : Nat}
    (hi : i < cells.length) : write m start cells (start + i) = cells[i] := by
  have hsome : cells[start + i - start]? = some cells[i] := by
    rw [Nat.add_sub_cancel_left, List.getElem?_eq_getElem hi]
  rw [write, if_neg (by omega), hsome, Option.getD_some]

/-- Two memories with the same cells in a range are read alike there. -/
theorem read_congr {m m' : Mem β} {start length : Nat}
    (h : ∀ i, start ≤ i → i < start + length → m i = m' i) :
    read m start length = read m' start length := by
  refine List.map_congr_left fun i hi => h (start + i) (by omega) ?_
  have := List.mem_range.mp hi
  omega

theorem read_write_same (m : Mem β) (start : Nat) (cells : List β) :
    read (write m start cells) start cells.length = cells := by
  apply List.ext_getElem (by simp)
  intro i hi _
  have hlt : i < cells.length := by simpa using hi
  simp only [read, List.getElem_map, List.getElem_range]
  exact write_inside hlt

theorem read_write_outside {m : Mem β} {start length other : Nat} {cells : List β}
    (h : start + length ≤ other ∨ other + cells.length ≤ start) :
    read (write m other cells) start length = read m start length :=
  read_congr fun i _ _ => write_outside (by omega)

/-- Two writes one after the other are one write. -/
theorem write_append (m : Mem β) (start : Nat) (xs ys : List β) :
    write (write m start xs) (start + xs.length) ys = write m start (xs ++ ys) := by
  funext i
  by_cases hlow : i < start
  · rw [write_outside (by omega), write_outside (by omega), write_outside (by omega)]
  by_cases hmid : i < start + xs.length
  · obtain ⟨j, rfl⟩ : ∃ j, i = start + j := ⟨i - start, by omega⟩
    have hj : j < xs.length := by omega
    rw [write_outside (by omega), write_inside hj,
      write_inside (by rw [List.length_append]; omega), List.getElem_append_left hj]
  by_cases hhigh : i < start + xs.length + ys.length
  · obtain ⟨j, rfl⟩ : ∃ j, i = start + xs.length + j := ⟨i - start - xs.length, by omega⟩
    have hj : j < ys.length := by omega
    have hsize : xs.length + j < (xs ++ ys).length := by
      rw [List.length_append]
      omega
    have hcell : (xs ++ ys)[xs.length + j] = ys[j] := by
      rw [List.getElem_append_right (by omega)]
      simp only [Nat.add_sub_cancel_left]
    rw [write_inside hj, Nat.add_assoc, write_inside hsize, hcell]
  · rw [write_outside (by omega), write_outside (by omega),
      write_outside (by rw [List.length_append]; omega)]

/-- A part of what was written is read where it stands. -/
theorem read_write_part (m : Mem β) (start : Nat) (xs ys zs : List β) :
    read (write m start (xs ++ ys ++ zs)) (start + xs.length) ys.length = ys := by
  rw [← write_append, ← write_append, read_write_outside (by rw [List.length_append]; omega),
    read_write_same]

theorem write_read_inside {m m' : Mem β} {start source length i : Nat} (hi : i < length) :
    write m start (read m' source length) (start + i) = m' (source + i) := by
  have hread : i < (read m' source length).length := by rwa [length_read]
  rw [write_inside hread]
  simp only [read, List.getElem_map, List.getElem_range]

/-- Cells that are written where they were read stay the same. -/
theorem write_read_self (m : Mem β) (start length : Nat) :
    write m start (read m start length) = m := by
  funext i
  by_cases hinside : start ≤ i ∧ i < start + length
  · obtain ⟨j, rfl⟩ := Nat.exists_eq_add_of_le hinside.1
    exact write_read_inside (by omega)
  · exact write_outside (by rw [length_read]; omega)

/-! ## Numbers -/

/-- The lowest bytes of a number. -/
def bytesOf : Nat → Nat → List UInt8
  | 0, _ => []
  | size + 1, n => UInt8.ofNat n :: bytesOf size (n / 256)

def numberOf : List UInt8 → Nat
  | [] => 0
  | byte :: bytes => byte.toNat + 256 * numberOf bytes

@[simp] theorem length_bytesOf (size n : Nat) : (bytesOf size n).length = size := by
  induction size generalizing n with
  | zero => rfl
  | succ size ih => rw [bytesOf, List.length_cons, ih]

theorem numberOf_bytesOf (size n : Nat) : numberOf (bytesOf size n) = n % 256 ^ size := by
  induction size generalizing n with
  | zero => rw [Nat.pow_zero, Nat.mod_one, bytesOf, numberOf]
  | succ size ih =>
      have hbyte : (UInt8.ofNat n).toNat = n % 256 := UInt8.toNat_ofNat'
      have hpow : 256 ^ (size + 1) = 256 * 256 ^ size := by rw [Nat.pow_succ, Nat.mul_comm]
      rw [bytesOf, numberOf, ih, hbyte, hpow, Nat.mod_mul]

def readWord (m : Mem UInt8) (address : Nat) : UInt64 := UInt64.ofNat (numberOf (read m address 8))

theorem readWord_of_read {m : Mem UInt8} {address : Nat} {word : UInt64}
    (h : read m address 8 = bytesOf 8 word.toNat) : readWord m address = word := by
  have hbound := word.toNat_lt
  rw [readWord, h, numberOf_bytesOf, Nat.mod_eq_of_lt (by omega), UInt64.ofNat_toNat]

end Support.Memory
