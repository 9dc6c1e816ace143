import Mathlib.Data.Finset.Basic
/-!
# Futexes

A word of 32 bits with the threads that sleep on it.  A wait sleeps only if the word has
the expected value when the kernel looks at it; a wake takes one sleeper off the word, and
so does a sleeper that returns of itself.
-/

namespace Support

variable {T : Type*} [DecidableEq T]

structure Futex (T : Type*) where
  word : UInt32
  sleepers : Finset T := ∅
  deriving DecidableEq

namespace Futex

def store (futex : Futex T) (value : UInt32) : Futex T := { futex with word := value }

def sleep (futex : Futex T) (t : T) : Futex T :=
  { futex with sleepers := insert t futex.sleepers }

/-- The thread no longer sleeps on the word, if it did. -/
def remove (futex : Futex T) (t : T) : Futex T :=
  { futex with sleepers := futex.sleepers.erase t }

/-- One sleeper, if there is any, is taken off the word. -/
def wake (futex : Futex T) : Option T → Option (Futex T)
  | some u => if u ∈ futex.sleepers then some (futex.remove u) else none
  | none => if futex.sleepers = ∅ then some futex else none

@[simp] theorem mem_sleep {futex : Futex T} {t u : T} :
    u ∈ (futex.sleep t).sleepers ↔ u = t ∨ u ∈ futex.sleepers :=
  Finset.mem_insert

@[simp] theorem mem_remove {futex : Futex T} {t u : T} :
    u ∈ (futex.remove t).sleepers ↔ u ≠ t ∧ u ∈ futex.sleepers :=
  Finset.mem_erase

/-- A wake takes one sleeper off, or there was none. -/
theorem wake_cases {futex futex' : Futex T} {woken : Option T}
    (h : futex.wake woken = some futex') :
    (∃ u ∈ futex.sleepers, futex' = futex.remove u) ∨
      futex.sleepers = ∅ ∧ futex' = futex := by
  cases woken with
  | some u =>
      simp only [wake, Option.ite_none_right_eq_some, Option.some.injEq] at h
      exact Or.inl ⟨u, h.1, h.2.symm⟩
  | none =>
      simp only [wake, Option.ite_none_right_eq_some, Option.some.injEq] at h
      exact Or.inr ⟨h.1, h.2.symm⟩

end Futex

end Support
