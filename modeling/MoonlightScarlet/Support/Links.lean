import Mathlib.Data.List.Nodup
import Mathlib.Logic.Function.Basic
/-!
# Doubly linked lists

The cells of a list point to each other: `flink` to the next cell and `blink` to the one
before.  `Linked` ties the pointers, and the two to the ends, to the list of the cells.
-/

namespace Support.Links

variable {P : Type*}

/-- Following `flink` from `head` visits the cells and ends. -/
def Forward (flink : P → Option P) : Option P → List P → Prop
  | head, [] => head = none
  | head, p :: ps => head = some p ∧ Forward flink (flink p) ps

/-- Each cell points back to the one before; the first one to `before`. -/
def Backward (blink : P → Option P) : Option P → List P → Prop
  | _, [] => True
  | before, p :: ps => blink p = before ∧ Backward blink (some p) ps

structure Linked (flink blink : P → Option P) (head tail : Option P) (cells : List P) :
    Prop where
  nodup : cells.Nodup
  forward : Forward flink head cells
  backward : Backward blink none cells
  last : tail = cells.getLast?

variable {flink flink' blink blink' : P → Option P} {head tail : Option P} {cells : List P}

theorem Forward.congr (h : Forward flink head cells) (hcells : ∀ p ∈ cells, flink' p = flink p) :
    Forward flink' head cells := by
  induction cells generalizing head with
  | nil => exact h
  | cons p ps ih =>
      obtain ⟨hhead, hrest⟩ := h
      have hp : flink' p = flink p := hcells p (by simp)
      exact ⟨hhead, hp.symm ▸ ih hrest fun q hq => hcells q (by simp [hq])⟩

theorem Backward.congr {before : Option P} (h : Backward blink before cells)
    (hcells : ∀ p ∈ cells, blink' p = blink p) : Backward blink' before cells := by
  induction cells generalizing before with
  | nil => exact h
  | cons p ps ih =>
      obtain ⟨hp, hrest⟩ := h
      exact ⟨(hcells p (by simp)).trans hp, ih hrest fun q hq => hcells q (by simp [hq])⟩

theorem Linked.nil : Linked flink blink none none [] := ⟨.nil, rfl, trivial, rfl⟩

theorem Linked.head_eq (h : Linked flink blink head tail cells) : head = cells.head? := by
  cases cells with
  | nil => exact h.forward
  | cons p ps => exact h.forward.1

theorem Linked.tail_eq_none (h : Linked flink blink head tail cells) (hhead : head = none) :
    tail = none := by
  rw [h.head_eq] at hhead
  rw [h.last, List.head?_eq_none_iff.mp hhead, List.getLast?_nil]

section Update

variable [DecidableEq P] {cell : P}

theorem Forward.snoc (h : Forward flink head cells) (hnodup : cells.Nodup) {last : P}
    (hlast : cells.getLast? = some last) (hcell : cell ∉ cells) (hend : flink cell = none) :
    Forward (Function.update flink last (some cell)) head (cells ++ [cell]) := by
  induction cells generalizing head with
  | nil => cases hlast
  | cons p ps ih =>
      obtain ⟨hhead, hrest⟩ := h
      obtain ⟨hp, hps⟩ := List.nodup_cons.mp hnodup
      refine ⟨hhead, ?_⟩
      cases ps with
      | nil =>
          obtain rfl : p = last := by simpa using hlast
          have hne : cell ≠ p := by
            rintro rfl
            exact hcell (by simp)
          refine ⟨Function.update_self .., ?_⟩
          rw [Function.update_of_ne hne, hend]
          rfl
      | cons q qs =>
          have hlast' : (q :: qs).getLast? = some last := by simpa using hlast
          have hne : p ≠ last := by
            rintro rfl
            exact hp (List.mem_of_getLast? hlast')
          rw [Function.update_of_ne hne]
          exact ih hrest hps hlast' fun hmem => hcell (List.mem_cons_of_mem _ hmem)

omit [DecidableEq P] in
theorem Backward.snoc {before : Option P} (h : Backward blink before cells)
    (hcell : blink cell = cells.getLast?.or before) :
    Backward blink before (cells ++ [cell]) := by
  induction cells generalizing before with
  | nil => exact ⟨by simpa using hcell, trivial⟩
  | cons p ps ih =>
      refine ⟨h.1, ih h.2 ?_⟩
      rw [hcell]
      cases ps with
      | nil => rfl
      | cons q qs =>
          obtain ⟨last, hlast⟩ : ∃ last, (q :: qs).getLast? = some last :=
            ⟨_, List.getLast?_eq_some_getLast (List.cons_ne_nil q qs)⟩
          rw [List.getLast?_cons_cons, hlast]
          rfl

/-- The first cell of an empty list. -/
theorem Linked.first (hcell : flink cell = none) :
    Linked flink (Function.update blink cell none) (some cell) (some cell) [cell] :=
  ⟨List.nodup_singleton cell, ⟨rfl, hcell⟩, ⟨Function.update_self .., trivial⟩, rfl⟩

/-- A cell put behind the last one. -/
theorem Linked.snoc {last : P} (h : Linked flink blink head (some last) cells)
    (hcell : cell ∉ cells) (hend : flink cell = none) :
    Linked (Function.update flink last (some cell)) (Function.update blink cell (some last))
      head (some cell) (cells ++ [cell]) := by
  have hbackward : Backward (Function.update blink cell (some last)) none cells := by
    refine h.backward.congr fun p hp => ?_
    have hne : p ≠ cell := by
      rintro rfl
      exact hcell hp
    exact Function.update_of_ne hne ..
  constructor
  · refine List.nodup_append.mpr ⟨h.nodup, List.nodup_singleton cell, ?_⟩
    intro p hp q hq hpq
    rw [hpq, List.mem_singleton.mp hq] at hp
    exact hcell hp
  · exact h.forward.snoc h.nodup h.last.symm hcell hend
  · refine hbackward.snoc ?_
    rw [Function.update_self, ← h.last]
    rfl
  · rw [List.getLast?_concat]

/-- The first cell taken off. -/
theorem Linked.pop {first second : P} {rest : List P}
    (h : Linked flink blink head tail (first :: second :: rest)) :
    Linked flink (Function.update blink second none) (some second) tail (second :: rest) := by
  obtain ⟨hfirst, hrest⟩ := List.nodup_cons.mp h.nodup
  constructor
  · exact hrest
  · exact ⟨rfl, h.forward.2.2⟩
  · refine ⟨Function.update_self .., h.backward.2.2.congr fun p hp => ?_⟩
    have hne : p ≠ second := by
      rintro rfl
      exact (List.nodup_cons.mp hrest).1 hp
    exact Function.update_of_ne hne ..
  · rw [h.last, List.getLast?_cons_cons]

end Update

end Support.Links
