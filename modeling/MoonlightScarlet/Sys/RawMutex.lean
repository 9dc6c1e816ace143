import MoonlightScarlet.Support.Futex
import MoonlightScarlet.Support.Threads
/-!
# The futex mutex

`RawMutex` of the C library shims.  Each operation on the state word and each system call
of `lock` and `unlock` is one step; the answers of the kernel are labels of the steps.
-/

namespace MoonlightScarlet.Sys

open Support Support.Threads

def mutexUnlocked : UInt32 := 0
def mutexLocked : UInt32 := 1
def mutexContended : UInt32 := 2

namespace RawMutex

/-- Where a thread stands: outside, in `lock` (`exchange`, `wait`, `waiting` and `pause`),
between `lock` and `unlock`, or in `unlock` after its swap. -/
inductive Pc
  | idle
  | exchange
  | wait
  | waiting
  | pause
  | held
  | wake
  deriving DecidableEq

inductive Action (T : Type)
  | lock
  | exchange
  /-- `FutexWait` looks at the word, or fails without it. -/
  | wait (fails : Bool)
  /-- `FutexWait` returns to a thread that was woken, or to a sleeper for no reason. -/
  | waited (fails : Bool)
  | paused
  | unlock
  | wake (woken : Option T)
  deriving DecidableEq

variable {T : Type} [DecidableEq T]

/-- Where `lock` goes on after the result of `FutexWait`, `usize::MAX` if it failed. -/
def afterWait (fails : Bool) : Pc := if fails then .pause else .exchange

def advance (t : T) (state : Futex T) : Pc → Action T → Option (Futex T × Pc)
  | .idle, .lock =>
      if state.word = mutexUnlocked then some (state.store mutexLocked, .held)
      else some (state, .exchange)
  | .exchange, .exchange =>
      some (state.store mutexContended, if state.word = mutexUnlocked then .held else .wait)
  | .wait, .wait fails =>
      if !fails && state.word = mutexContended then some (state.sleep t, .waiting)
      else some (state, afterWait fails)
  | .waiting, .waited fails => some (state.remove t, afterWait fails)
  | .pause, .paused => some (state, .exchange)
  | .held, .unlock =>
      some (state.store mutexUnlocked, if state.word = mutexContended then .wake else .idle)
  | .wake, .wake woken => (state.wake woken).map fun state => (state, .idle)
  | _, _ => none

abbrev State (T : Type) := Threads.System T (Futex T) Pc

def initial : State T := { shared := { word := mutexUnlocked }, pcs := fun _ => .idle }

abbrev step : State T → T × Action T → Option (State T) := Threads.step advance

/-- The thread is between a returned `lock` and its `unlock`. -/
def Holds (s : State T) (t : T) : Prop := s.pcs t = .held

/-- The thread is in `lock` or `unlock`. -/
def Pc.inside : Pc → Bool
  | .idle | .held => false
  | _ => true

/-- The mutex is free, and yet a thread sleeps on it that nobody is about to wake. -/
structure Stranded (s : State T) : Prop where
  unlocked : s.shared.word = mutexUnlocked
  asleep : ∃ t, t ∈ s.shared.sleepers
  others : ∀ t, (s.pcs t).inside → t ∈ s.shared.sleepers

end RawMutex

end MoonlightScarlet.Sys
