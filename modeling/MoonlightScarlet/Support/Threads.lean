import Mathlib.Logic.Function.Basic
/-!
# Threads over shared data

Each thread has a program counter, and a step of the system is a step of one thread:
`advance` gives the new shared data and the new counter of that thread.  A lock is
`Owned` when it names exactly the thread whose counter says that it holds the lock.
-/

namespace Support.Threads

variable {T σ π ℓ : Type*} [DecidableEq T]

structure System (T σ π : Type*) where
  shared : σ
  pcs : T → π

def step (advance : T → σ → π → ℓ → Option (σ × π)) (s : System T σ π) (label : T × ℓ) :
    Option (System T σ π) :=
  (advance label.1 s.shared (s.pcs label.1) label.2).map fun next =>
    ⟨next.1, Function.update s.pcs label.1 next.2⟩

theorem step_update {advance : T → σ → π → ℓ → Option (σ × π)} {t : T} {action : ℓ}
    {shared shared' : σ} {pc pc' : π} (h : advance t shared pc action = some (shared', pc'))
    (pcs : T → π) : step advance ⟨shared, Function.update pcs t pc⟩ (t, action) =
      some ⟨shared', Function.update pcs t pc'⟩ := by
  simp only [step, Function.update_self, Function.update_idem, h, Option.map_some]

/-- An invariant of all states follows from what one thread can do. -/
theorem step_preserves {advance : T → σ → π → ℓ → Option (σ × π)} {I : System T σ π → Prop}
    (h : ∀ s t action shared pc, I s → advance t s.shared (s.pcs t) action = some (shared, pc) →
      I ⟨shared, Function.update s.pcs t pc⟩)
    {s s' : System T σ π} {label : T × ℓ} (hs : I s) (hstep : step advance s label = some s') :
    I s' := by
  obtain ⟨⟨shared, pc⟩, hadvance, rfl⟩ := Option.map_eq_some_iff.mp hstep
  exact h s label.1 label.2 shared pc hs hadvance

section Owned

variable {holds : π → Prop} {pcs : T → π} {lock : Option T} {t u : T} {pc : π}

def Owned (holds : π → Prop) (pcs : T → π) (lock : Option T) : Prop :=
  ∀ t, holds (pcs t) ↔ lock = some t

omit [DecidableEq T] in
theorem Owned.unique (h : Owned holds pcs lock) (ht : holds (pcs t)) (hu : holds (pcs u)) :
    t = u :=
  Option.some.inj (((h t).mp ht).symm.trans ((h u).mp hu))

theorem Owned.keep (h : Owned holds pcs lock) (hpc : holds pc ↔ holds (pcs t)) :
    Owned holds (Function.update pcs t pc) lock := by
  intro u
  by_cases hu : u = t
  · subst hu
    rw [Function.update_self, hpc, h u]
  · rw [Function.update_of_ne hu, h u]

theorem Owned.acquire (h : Owned holds pcs none) (hpc : holds pc) :
    Owned holds (Function.update pcs t pc) (some t) := by
  intro u
  by_cases hu : u = t
  · subst hu
    rw [Function.update_self]
    exact iff_of_true hpc rfl
  · rw [Function.update_of_ne hu, h u]
    exact iff_of_false (Option.some_ne_none u).symm fun hsome => hu (Option.some.inj hsome).symm

theorem Owned.release (h : Owned holds pcs lock) (ht : holds (pcs t)) (hpc : ¬holds pc) :
    Owned holds (Function.update pcs t pc) none := by
  intro u
  by_cases hu : u = t
  · subst hu
    rw [Function.update_self]
    exact iff_of_false hpc (Option.some_ne_none u).symm
  · rw [Function.update_of_ne hu]
    exact iff_of_false (fun hholds => hu (h.unique hholds ht)) (Option.some_ne_none u).symm

end Owned

end Support.Threads
