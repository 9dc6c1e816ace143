import Mathlib.Data.List.Sort
/-!
# Ordered sets

A set as the ascending list of its elements, which is also the order in which it
is iterated.
-/

namespace Support

structure SortedSet (α : Type*) [LinearOrder α] where
  toList : List α
  sorted : toList.Pairwise (· ≤ ·)
  nodup : toList.Nodup

namespace SortedSet

variable {α : Type*} [LinearOrder α]

instance : Membership α (SortedSet α) := ⟨fun s a => a ∈ s.toList⟩

instance (a : α) (s : SortedSet α) : Decidable (a ∈ s) :=
  inferInstanceAs (Decidable (a ∈ s.toList))

def empty : SortedSet α := ⟨[], .nil, .nil⟩

instance : EmptyCollection (SortedSet α) := ⟨empty⟩

instance : Inhabited (SortedSet α) := ⟨empty⟩

def insert (s : SortedSet α) (a : α) : SortedSet α :=
  if h : a ∈ s.toList then s
  else
    { toList := s.toList.orderedInsert (· ≤ ·) a
      sorted := s.sorted.orderedInsert a
      nodup := (List.perm_orderedInsert _ a s.toList).nodup_iff.mpr
        (List.nodup_cons.mpr ⟨h, s.nodup⟩) }

def erase (s : SortedSet α) (a : α) : SortedSet α where
  toList := s.toList.erase a
  sorted := s.sorted.sublist List.erase_sublist
  nodup := s.nodup.erase a

@[simp] theorem mem_toList {s : SortedSet α} {a : α} : a ∈ s.toList ↔ a ∈ s := Iff.rfl

@[simp] theorem not_mem_empty (a : α) : a ∉ (∅ : SortedSet α) := List.not_mem_nil

@[simp] theorem mem_insert {s : SortedSet α} {a b : α} : b ∈ s.insert a ↔ b = a ∨ b ∈ s := by
  unfold insert
  split
  · rename_i h
    exact ⟨Or.inr, by rintro (rfl | hb) <;> assumption⟩
  · exact List.mem_orderedInsert ..

@[simp] theorem mem_erase {s : SortedSet α} {a b : α} : b ∈ s.erase a ↔ b ≠ a ∧ b ∈ s :=
  s.nodup.mem_erase_iff

end SortedSet

end Support
