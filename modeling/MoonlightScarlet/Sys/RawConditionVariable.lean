import MoonlightScarlet.Sys.RawMutex
import Mathlib.Algebra.Group.Nat.Defs
/-!
# The condition variable

`RawConditionVariable` under the threads that use it as the core does.  Consumers run
`lock; while n = 0 { wait }; n -= 1; unlock` in a loop, and every call of a producer is
`lock; n += 1; unlock; signal`.  A step is one of the mutex, one operation on the sequence
word or on `n`, one system call, or the return from a call of the mutex.
-/

namespace MoonlightScarlet.Sys.RawConditionVariable

open Support Support.Threads

/-- The two words and the data that the mutex protects; `signals` counts the increments of
the sequence word without wrapping. -/
structure Shared (T : Type) where
  mutex : Futex T := { word := mutexUnlocked }
  sequence : Futex T := { word := 0 }
  n : Nat := 0
  signals : Nat := 0

/-- `load` to `relock` are `wait`.  With the value of the sequence word goes the number of
signals at the time it was loaded. -/
inductive Consumer
  | lock
  | check
  | load
  | unlockToWait (sequence : UInt32) (loadedAt : Nat)
  | futexWait (sequence : UInt32) (loadedAt : Nat)
  | waiting
  | relock
  | take
  | unlock
  deriving DecidableEq

/-- A producer is `idle` between two calls; `fetchAdd` and `wake` are `signal`. -/
inductive Producer
  | idle
  | lock
  | add
  | unlock
  | fetchAdd
  | wake
  deriving DecidableEq

inductive Stage
  | consumer (stage : Consumer)
  | producer (stage : Producer)
  deriving DecidableEq

structure Pc where
  mutex : RawMutex.Pc := .idle
  stage : Stage
  deriving DecidableEq

inductive Call (T : Type)
  | next
  | wait (fails : Bool)
  | waited
  | wake (woken : Option T)
  deriving DecidableEq

inductive Action (T : Type)
  | mutex (action : RawMutex.Action T)
  | call (call : Call T)
  deriving DecidableEq

/-- `lock` and `unlock` are called where the program calls them. -/
def Stage.permits {T : Type} : Stage → RawMutex.Action T → Bool
  | .consumer .lock, .lock | .consumer .relock, .lock | .producer .lock, .lock => true
  | .consumer (.unlockToWait ..), .unlock | .consumer .unlock, .unlock
  | .producer .unlock, .unlock => true
  | _, .lock | _, .unlock => false
  | _, _ => true

variable {T : Type} [DecidableEq T]

def Consumer.advance (t : T) (shared : Shared T) (mutex : RawMutex.Pc) :
    Consumer → Call T → Option (Shared T × Consumer)
  | .lock, .next => if mutex = .held then some (shared, .check) else none
  | .check, .next => some (shared, if shared.n = 0 then .load else .take)
  | .load, .next => some (shared, .unlockToWait shared.sequence.word shared.signals)
  | .unlockToWait sequence loadedAt, .next =>
      if mutex = .idle then some (shared, .futexWait sequence loadedAt) else none
  | .futexWait sequence _, .wait fails =>
      if !fails && shared.sequence.word = sequence then
        some ({ shared with sequence := shared.sequence.sleep t }, .waiting)
      else some (shared, .relock)
  | .waiting, .waited =>
      some ({ shared with sequence := shared.sequence.remove t }, .relock)
  | .relock, .next => if mutex = .held then some (shared, .check) else none
  | .take, .next => some ({ shared with n := shared.n - 1 }, .unlock)
  | .unlock, .next => if mutex = .idle then some (shared, .lock) else none
  | _, _ => none

def Producer.advance (shared : Shared T) (mutex : RawMutex.Pc) :
    Producer → Call T → Option (Shared T × Producer)
  | .idle, .next => some (shared, .lock)
  | .lock, .next => if mutex = .held then some (shared, .add) else none
  | .add, .next => some ({ shared with n := shared.n + 1 }, .unlock)
  | .unlock, .next => if mutex = .idle then some (shared, .fetchAdd) else none
  | .fetchAdd, .next =>
      some ({ shared with
        sequence := shared.sequence.store (shared.sequence.word + 1)
        signals := shared.signals + 1 }, .wake)
  | .wake, .wake woken =>
      (shared.sequence.wake woken).map fun sequence =>
        ({ shared with sequence := sequence }, .idle)
  | _, _ => none

def Stage.advance (t : T) (shared : Shared T) (mutex : RawMutex.Pc) (call : Call T) :
    Stage → Option (Shared T × Stage)
  | .consumer stage =>
      (stage.advance t shared mutex call).map fun next => (next.1, .consumer next.2)
  | .producer stage =>
      (stage.advance shared mutex call).map fun next => (next.1, .producer next.2)

def advance (t : T) (shared : Shared T) (pc : Pc) : Action T → Option (Shared T × Pc)
  | .mutex action =>
      if pc.stage.permits action then
        (RawMutex.advance t shared.mutex pc.mutex action).map fun next =>
          ({ shared with mutex := next.1 }, { pc with mutex := next.2 })
      else none
  | .call call =>
      (pc.stage.advance t shared pc.mutex call).map fun next =>
        (next.1, { pc with stage := next.2 })

abbrev State (T : Type) := Threads.System T (Shared T) Pc

/-- The threads that `consumer` names are consumers and the others are producers. -/
def initial (consumer : T → Bool) : State T where
  shared := {}
  pcs t := { stage := if consumer t then .consumer .lock else .producer .idle }

abbrev step : State T → T × Action T → Option (State T) := Threads.step advance

/-- The age of the value that the thread passes to `FutexWait`. -/
def Stage.waitsSince : Stage → Option Nat
  | .consumer (.futexWait _ loadedAt) => some loadedAt
  | _ => none

/-- Fewer than 2³² signals came between the load of the sequence word and `FutexWait`. -/
def Fresh (s : State T) (label : T × Action T) : Prop :=
  ∀ loadedAt ∈ (s.pcs label.1).stage.waitsSince, s.shared.signals < loadedAt + 2 ^ 32

instance (s : State T) (label : T × Action T) : Decidable (Fresh s label) :=
  inferInstanceAs (Decidable (∀ loadedAt ∈ (s.pcs label.1).stage.waitsSince,
    s.shared.signals < loadedAt + 2 ^ 32))

def Stage.isConsumer : Stage → Bool
  | .consumer _ => true
  | .producer _ => false

/-- There is something to consume, no call of a producer is under way, and every consumer
sleeps on the sequence word. -/
structure LostWakeup (s : State T) : Prop where
  available : 0 < s.shared.n
  consumers : ∃ t, (s.pcs t).stage.isConsumer
  asleep : ∀ t, (s.pcs t).stage.isConsumer → t ∈ s.shared.sequence.sleepers
  finished : ∀ t, ¬(s.pcs t).stage.isConsumer → (s.pcs t).stage = .producer .idle

/-- The thread has the mutex to itself. -/
structure HoldsMutex (s : State T) (t : T) : Prop where
  held : (s.pcs t).mutex = .held
  locked : s.shared.mutex.word ≠ mutexUnlocked
  only : ∀ u, (s.pcs u).mutex = .held → u = t

end MoonlightScarlet.Sys.RawConditionVariable
