import MoonlightScarlet.Support.Words
import MoonlightScarlet.Sys.Proofs.Vsnprintf
import Mathlib.Data.List.TakeDrop
/-!
# The buffer of vsnprintf

The buffer takes the part of the text that it has room for, and a NUL behind it.
-/

namespace MoonlightScarlet.Sys.Vsnprintf

open Support.Memory Support.Words

/-- The output after a text that began at the start of a buffer. -/
structure Holds (buffer : Mem Char) (n : UInt64) (text : List Char)
    (output : OutputBuffer) : Prop where
  capacity : output.capacity = n
  position : output.position.toNat = text.length
  total : output.total.toNat = text.length
  bytes : output.bytes = write buffer 0 (text.take (n.toNat - 1))

section Holds

variable {buffer : Mem Char} {capacity : UInt64} {text : List Char} {output : OutputBuffer}

/-- A character is stored while there is room for it and the NUL, and counted always. -/
theorem Holds.outputCharacter (h : Holds buffer capacity text output) (c : Char)
    (hlength : text.length + 1 < 2 ^ 64) :
    Holds buffer capacity (text ++ [c]) (outputCharacter output c) := by
  have hposition := h.position
  have htotal := h.total
  have hnext : (output.position + 1).toNat = text.length + 1 := by
    rw [toNat_add_one (by omega), hposition]
  have hcount : (output.total + 1).toNat = text.length + 1 := by
    rw [toNat_add_one (by omega), htotal]
  refine ⟨h.capacity, ?_, ?_, ?_⟩
  · rw [List.length_append]
    exact hnext
  · rw [List.length_append]
    exact hcount
  · have hroom : (output.capacity > 0 ∧ output.position + 1 < output.capacity) ↔
        text.length + 1 < capacity.toNat := by
      have hzero : (0 : UInt64).toNat = 0 := rfl
      rw [h.capacity, gt_iff_lt, UInt64.lt_iff_toNat_lt, UInt64.lt_iff_toNat_lt, hnext, hzero]
      omega
    unfold Vsnprintf.outputCharacter
    dsimp only
    by_cases hlt : text.length + 1 < capacity.toNat
    · have hbefore : text.take (capacity.toNat - 1) = text := List.take_of_length_le (by omega)
      have hafter : (text ++ [c]).take (capacity.toNat - 1) = text ++ [c] := by
        refine List.take_of_length_le ?_
        rw [List.length_append, List.length_singleton]
        omega
      have happend := write_append buffer 0 text [c]
      rw [Nat.zero_add] at happend
      rw [if_pos (hroom.mpr hlt), h.bytes, hposition, hbefore, hafter, happend]
    · have hfull : (text ++ [c]).take (capacity.toNat - 1) = text.take (capacity.toNat - 1) :=
        List.take_append_of_le_length (by omega)
      rw [if_neg (fun hyes => hlt (hroom.mp hyes)), h.bytes, hfull]

theorem holds_emit (buffer : Mem Char) (capacity : UInt64) {text : List Char}
    (hlength : text.length < 2 ^ 64) :
    Holds buffer capacity text (emit ⟨buffer, capacity, 0, 0⟩ text) := by
  induction text using List.reverseRecOn with
  | nil => exact ⟨rfl, rfl, rfl, by rw [List.take_nil, write_nil]; rfl⟩
  | append_singleton text c ih =>
      rw [List.length_append, List.length_singleton] at hlength
      rw [← emit_emit]
      exact (ih (by omega)).outputCharacter c hlength

/-- The NUL stands behind the part that fits. -/
theorem Holds.terminated (h : Holds buffer capacity text output) (hpos : 0 < capacity.toNat) :
    write output.bytes
        (if output.position < capacity then output.position else capacity - 1).toNat [nul] =
      write buffer 0 (text.take (capacity.toNat - 1) ++ [nul]) := by
  have hlast := toNat_sub_one hpos
  have hterminator : (if output.position < capacity then output.position
      else capacity - 1).toNat = (text.take (capacity.toNat - 1)).length := by
    rw [List.length_take]
    by_cases hlt : output.position < capacity
    · rw [if_pos hlt, h.position]
      rw [UInt64.lt_iff_toNat_lt, h.position] at hlt
      omega
    · rw [if_neg hlt, hlast]
      rw [UInt64.lt_iff_toNat_lt, h.position] at hlt
      omega
  have happend := write_append buffer 0 (text.take (capacity.toNat - 1)) [nul]
  rw [Nat.zero_add] at happend
  rw [hterminator, h.bytes, happend]

end Holds

/-! ## The whole call -/

theorem vsnprintf_eq (buffer : Mem Char) (n : UInt64) (pieces : List Piece)
    (others : List Argument) (h : (rendering pieces).length ≤ intMax) :
    vsnprintf buffer n (formatText pieces) (pieces.flatMap Piece.arguments ++ others) =
      some (((rendering pieces).length : Int),
        if n = 0 then buffer
        else write buffer 0 ((rendering pieces).take (n.toNat - 1) ++ [nul])) := by
  have hmax : intMax = 2147483647 := rfl
  have hlength : (rendering pieces).length < 2 ^ 64 := by omega
  have hholds := holds_emit buffer n hlength
  unfold vsnprintf
  rw [formatLoop_eq pieces others _ (Nat.le_refl _), Option.bind_eq_bind, Option.bind_some]
  dsimp only
  rw [hholds.total, toInt_eq h]
  by_cases hzero : n = 0
  · have hnone : (rendering pieces).take (n.toNat - 1) = [] := by
      rw [hzero]
      rfl
    rw [if_neg (by simp [hzero]), if_pos hzero, hholds.bytes, hnone, write_nil]
    rfl
  · have hpos := toNat_pos_of_ne hzero
    have hgt : n > 0 := UInt64.lt_iff_toNat_lt.mpr hpos
    rw [if_pos hgt, if_neg hzero, hholds.terminated hpos]
    rfl

theorem vsnprintf_contract (buffer : Mem Char) (n : UInt64) (pieces : List Piece)
    (others : List Argument) (h : (rendering pieces).length ≤ intMax) :
    ∃ result contents,
      vsnprintf buffer n (formatText pieces) (pieces.flatMap Piece.arguments ++ others) =
          some (result, contents) ∧
        result = (rendering pieces).length ∧
        (0 < n.toNat →
          read contents 0 (min (rendering pieces).length (n.toNat - 1) + 1) =
            (rendering pieces).take (n.toNat - 1) ++ [nul]) ∧
        (∀ i, n.toNat ≤ i → contents i = buffer i) ∧
        (n = 0 → contents = buffer) ∧
        (result < n.toNat ↔
          0 < n.toNat ∧ (rendering pieces).take (n.toNat - 1) = rendering pieces) := by
  have hstored : ((rendering pieces).take (n.toNat - 1) ++ [nul]).length =
      min (rendering pieces).length (n.toNat - 1) + 1 := by
    rw [List.length_append, List.length_take, List.length_singleton, Nat.min_comm]
  refine ⟨_, _, vsnprintf_eq buffer n pieces others h, rfl, ?_, ?_, fun hzero => if_pos hzero, ?_⟩
  · intro hpos
    have hne : n ≠ 0 := fun hzero => by simp [hzero] at hpos
    rw [if_neg hne, ← hstored, read_write_same]
  · intro i hi
    by_cases hzero : n = 0
    · rw [if_pos hzero]
    · have hpos := toNat_pos_of_ne hzero
      rw [if_neg hzero]
      exact write_outside (by omega)
  · rw [List.take_eq_self_iff]
    omega

/-- The four bytes take the start of `-0042`. -/
theorem vsnprintf_contract_cut :
    ∃ result contents,
      vsnprintf (fun _ => 'a') 4 ['%', '0', '5', 'd'] [.integer 32 (-42)] =
          some (result, contents) ∧
        result = 5 ∧ read contents 0 4 = ['-', '0', '0', nul] := by
  obtain ⟨result, contents, hrun, hresult, hread, -⟩ :=
    vsnprintf_contract (fun _ => 'a') 4
      [.signed ⟨'d', by decide⟩ ⟨['0'], by simp⟩
        ⟨⟨['5'], forall_mem_of_all (by decide), by decide⟩, by decide⟩ .none (-42)] []
      (by decide)
  exact ⟨result, contents, hrun, hresult, hread (by decide)⟩

end MoonlightScarlet.Sys.Vsnprintf
