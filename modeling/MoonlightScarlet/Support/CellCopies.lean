import Mathlib.Data.List.Basic
import Mathlib.Logic.Function.Basic
/-!
# Copies of single cells

A run of assignments `m[to] := m[from]`, one cell after the other.  If no cell is read
after it was written, every cell that is written gets what its source held at first.
-/

namespace Support.CellCopies

variable {α β : Type*} [DecidableEq α]

/-- A copy is the pair of its target and its source. -/
def copyCell (m : α → β) (copy : α × α) : α → β := Function.update m copy.1 (m copy.2)

def copyCells (m : α → β) (copies : List (α × α)) : α → β := copies.foldl copyCell m

/-- No copy reads or writes what an earlier one has written. -/
structure ReadsFirst (copies : List (α × α)) : Prop where
  unread : copies.Pairwise fun earlier later => earlier.1 ≠ later.2
  distinct : copies.Pairwise fun earlier later => earlier.1 ≠ later.1

theorem copyCells_other {m : α → β} {copies : List (α × α)} {a : α}
    (h : ∀ copy ∈ copies, copy.1 ≠ a) : copyCells m copies a = m a := by
  induction copies generalizing m with
  | nil => rfl
  | cons copy copies ih =>
      rw [List.forall_mem_cons] at h
      calc copyCells m (copy :: copies) a = copyCell m copy a := ih h.2
        _ = m a := Function.update_of_ne h.1.symm _ _

/-- The cells read by the later copies still hold what they held before the first. -/
theorem copyCells_copied {m : α → β} {copies : List (α × α)} (h : ReadsFirst copies)
    {copy : α × α} (hcopy : copy ∈ copies) : copyCells m copies copy.1 = m copy.2 := by
  induction copies generalizing m with
  | nil => cases hcopy
  | cons first copies ih =>
      obtain ⟨hunread, hrestUnread⟩ := List.pairwise_cons.mp h.unread
      obtain ⟨hdistinct, hrestDistinct⟩ := List.pairwise_cons.mp h.distinct
      obtain rfl | hmem := List.mem_cons.mp hcopy
      · calc copyCells m (copy :: copies) copy.1 = copyCell m copy copy.1 :=
              copyCells_other fun later hlater => (hdistinct later hlater).symm
          _ = m copy.2 := Function.update_self _ _ _
      · calc copyCells m (first :: copies) copy.1 = copyCell m first copy.2 :=
              ih ⟨hrestUnread, hrestDistinct⟩ hmem
          _ = m copy.2 := Function.update_of_ne (hunread copy hmem).symm _ _

end Support.CellCopies
