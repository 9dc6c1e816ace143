import Mathlib.Data.Finite.Prod
/-!
# Texts in blocks

A text whose length is a multiple of the block length is a list of blocks, and a block
cipher in codebook mode works on each of them alone.
-/

namespace Support.Blocks

variable {α : Type*} {n : Nat}

def join (blocks : List (Vector α n)) : List α := blocks.flatMap Vector.toList

@[simp] theorem join_cons (block : Vector α n) (blocks : List (Vector α n)) :
    join (block :: blocks) = block.toList ++ join blocks := rfl

theorem join_append (blocks blocks' : List (Vector α n)) :
    join (blocks ++ blocks') = join blocks ++ join blocks' := List.flatMap_append

theorem length_join (blocks : List (Vector α n)) : (join blocks).length = blocks.length * n := by
  induction blocks with
  | nil => exact (Nat.zero_mul n).symm
  | cons block blocks ih =>
      rw [join_cons, List.length_append, ih, Vector.length_toList, List.length_cons,
        Nat.succ_mul, Nat.add_comm]

/-- Every text of a fitting length is a list of blocks. -/
theorem exists_join (count : Nat) (text : List α) (hlength : text.length = count * n) :
    ∃ blocks : List (Vector α n), blocks.length = count ∧ text = join blocks := by
  induction count generalizing text with
  | zero =>
      rw [Nat.zero_mul] at hlength
      exact ⟨[], rfl, List.length_eq_zero_iff.mp hlength⟩
  | succ count ih =>
      rw [Nat.succ_mul] at hlength
      have hfirst : (text.take n).length = n := by
        rw [List.length_take]
        omega
      have hrest : (text.drop n).length = count * n := by
        rw [List.length_drop]
        omega
      obtain ⟨blocks, hcount, hblocks⟩ := ih (text.drop n) hrest
      refine ⟨⟨(text.take n).toArray, hfirst⟩ :: blocks, congrArg (· + 1) hcount, ?_⟩
      rw [join_cons, ← hblocks]
      exact (List.take_append_drop n text).symm

/-- What inverts a cipher from the left inverts it from the right: there are finitely many
blocks. -/
theorem right_inverse [Finite α] {encrypt decrypt : Vector α n → Vector α n}
    (h : ∀ block, decrypt (encrypt block) = block) (block : Vector α n) :
    encrypt (decrypt block) = block := by
  have hinjective : Function.Injective encrypt := Function.LeftInverse.injective h
  have hentries : Function.Injective fun (v : Vector α n) (i : Fin n) => v[i] := by
    intro v w heq
    exact Vector.ext fun i hi => congrFun heq ⟨i, hi⟩
  have : Finite (Vector α n) := Finite.of_injective _ hentries
  obtain ⟨source, rfl⟩ := Finite.surjective_of_injective hinjective block
  rw [h]

theorem map_inverse {encrypt decrypt : Vector α n → Vector α n}
    (h : ∀ block, decrypt (encrypt block) = block) (blocks : List (Vector α n)) :
    (blocks.map encrypt).map decrypt = blocks := by
  rw [List.map_map]
  exact List.map_id'' h blocks

end Support.Blocks
