import MoonlightScarlet.Support.CellCopies
import MoonlightScarlet.Sys.Strings
/-!
# memmove copies overlapping ranges

Each loop copies the bytes of the range in an order in which no byte is read after it was
overwritten: upwards to a lower address, downwards to a higher one.
-/

namespace MoonlightScarlet.Sys.Strings

open Support.Memory Support.CellCopies

variable {out destination source length : Nat}

/-- The copies of the bytes from the lowest on. -/
def upwards (out source length : Nat) : List (Nat × Nat) :=
  (List.range length).map fun index => (out + index, source + index)

theorem mem_upwards {copy : Nat × Nat} :
    copy ∈ upwards out source length ↔ ∃ i < length, (out + i, source + i) = copy := by
  rw [upwards, List.mem_map]
  exact exists_congr fun i => and_congr_left' List.mem_range

theorem copyUp_eq (out source length : Nat) (m : Mem UInt8) :
    copyUp out source length m = copyCells m (upwards out source length) := by
  rw [copyCells, upwards, List.foldl_map]
  rfl

theorem copyDown_eq (out source length : Nat) (m : Mem UInt8) :
    copyDown out source length m = copyCells m (upwards out source length).reverse := by
  induction length generalizing m with
  | zero => rfl
  | succ length ih =>
      rw [copyDown, ih, upwards, upwards, List.range_succ, List.map_append, List.reverse_append]
      rfl

theorem pairwise_upwards {r : Nat × Nat → Nat × Nat → Prop}
    (h : ∀ i j, i < j → j < length → r (out + i, source + i) (out + j, source + j)) :
    (upwards out source length).Pairwise r := by
  rw [upwards, List.pairwise_map]
  exact List.pairwise_lt_range.imp_of_mem fun _ hj hlt => h _ _ hlt (List.mem_range.mp hj)

theorem readsFirst_upwards (h : out ≤ source ∨ source + length ≤ out) :
    ReadsFirst (upwards out source length) := by
  constructor
  case unread =>
    apply pairwise_upwards
    intro i j hlt hj
    dsimp only
    omega
  case distinct =>
    apply pairwise_upwards
    intro i j hlt hj
    dsimp only
    omega

/-- In the reversed order the later index is the lower one. -/
theorem readsFirst_downwards (h : source ≤ out) :
    ReadsFirst (upwards out source length).reverse := by
  constructor
  case unread =>
    apply List.pairwise_reverse.mpr
    apply pairwise_upwards
    intro i j hlt hj
    dsimp only
    omega
  case distinct =>
    apply List.pairwise_reverse.mpr
    apply pairwise_upwards
    intro i j hlt hj
    dsimp only
    omega

/-- Copies of a range that read first, in any order, write what the source held. -/
theorem copyCells_range {m : Mem UInt8} {copies : List (Nat × Nat)} (hfirst : ReadsFirst copies)
    (hrange : ∀ copy, copy ∈ copies ↔ copy ∈ upwards out source length) :
    copyCells m copies = write m out (Support.Memory.read m source length) := by
  funext a
  by_cases hinside : out ≤ a ∧ a < out + length
  · obtain ⟨i, rfl⟩ := Nat.exists_eq_add_of_le hinside.1
    have hi : i < length := by omega
    have hcopy : (out + i, source + i) ∈ copies :=
      (hrange _).mpr (mem_upwards.mpr ⟨i, hi, rfl⟩)
    calc copyCells m copies (out + i) = m (source + i) := copyCells_copied hfirst hcopy
      _ = write m out (Support.Memory.read m source length) (out + i) :=
          (write_read_inside hi).symm
  · have hother : ∀ copy ∈ copies, copy.1 ≠ a := by
      intro copy hcopy
      obtain ⟨i, hi, rfl⟩ := mem_upwards.mp ((hrange copy).mp hcopy)
      dsimp only
      omega
    rw [copyCells_other hother, write_outside (by rw [length_read]; omega)]

theorem copyUp_write (h : out ≤ source ∨ source + length ≤ out) (m : Mem UInt8) :
    copyUp out source length m = write m out (Support.Memory.read m source length) := by
  rw [copyUp_eq]
  exact copyCells_range (readsFirst_upwards h) fun copy => Iff.rfl

theorem copyDown_write (h : source ≤ out) (m : Mem UInt8) :
    copyDown out source length m = write m out (Support.Memory.read m source length) := by
  rw [copyDown_eq]
  exact copyCells_range (readsFirst_downwards h) fun copy => List.mem_reverse

/-- Ranges that do not overlap, as those of a frame and its copy, or that overlap downwards. -/
theorem memcpy_write (h : destination ≤ source ∨ source + length ≤ destination)
    (m : Mem UInt8) : memcpy m destination source length =
      (destination, write m destination (Support.Memory.read m source length)) := by
  rw [memcpy, copyUp_write h]

/-- Coinciding ranges are left alone. -/
theorem memmove_write (m : Mem UInt8) (destination source length : Nat) :
    memmove m destination source length =
      (destination, write m destination (Support.Memory.read m source length)) := by
  obtain hlow | rfl | hhigh := Nat.lt_trichotomy destination source
  · rw [memmove, if_pos hlow, copyUp_write (.inl (Nat.le_of_lt hlow))]
  · rw [memmove, if_neg (Nat.lt_irrefl _), if_neg (Nat.lt_irrefl _), write_read_self]
  · rw [memmove, if_neg (Nat.lt_asymm hhigh), if_pos hhigh, copyDown_write (Nat.le_of_lt hhigh)]

theorem memmove_exact (m : Mem UInt8) (destination source length : Nat) :
    (memmove m destination source length).1 = destination ∧
      Support.Memory.read (memmove m destination source length).2 destination length =
        Support.Memory.read m source length ∧
      ∀ a, a < destination ∨ destination + length ≤ a →
        (memmove m destination source length).2 a = m a := by
  rw [memmove_write]
  refine ⟨rfl, ?_, fun a ha => write_outside (by rwa [length_read])⟩
  have hsame := read_write_same m destination (Support.Memory.read m source length)
  rwa [length_read] at hsame

end MoonlightScarlet.Sys.Strings
