import MoonlightScarlet.Support.Threads
/-!
# The fallback of scarlet_random_u32

When the kernel gives no random bytes, the callers step a shared word with a loop of
compare-exchange.  Each atomic operation and each system call is one step; the answers of
the kernel and the spurious failures are labels of the steps.
-/

namespace MoonlightScarlet.Sys.FallbackRandom

open Support

/-- What a call returned, and where it came from. -/
inductive Output
  | kernel (output : UInt32)
  | fallback (output : UInt32)
  deriving DecidableEq

structure Shared where
  fallbackRandom : UInt64 := 0x8f6d4a21d3c7b509
  /-- The newest first. -/
  returned : List Output := []

def next (value : UInt64) : UInt64 :=
  value ^^^ (value <<< 13) ^^^ (value >>> 7) ^^^ (value <<< 17)

/-- Where a thread stands: outside, behind a failed `GetRandom`, or in the loop with its
`value`. -/
inductive Pc
  | idle
  | load
  | exchange (value : UInt64)
  deriving DecidableEq

inductive Action
  /-- `GetRandom` returns the number of bytes that it wrote to `output`. -/
  | call (result : UInt64) (output : UInt32)
  | load
  /-- `compare_exchange_weak` may fail for no reason. -/
  | exchange (spurious : Bool)
  deriving DecidableEq

def sizeOfOutput : UInt64 := 4

variable {T : Type} [DecidableEq T]

def advance (_ : T) (s : Shared) : Pc → Action → Option (Shared × Pc)
  | .idle, .call result output =>
      if result = sizeOfOutput then
        some ({ s with returned := .kernel output :: s.returned }, .idle)
      else some (s, .load)
  | .load, .load => some (s, .exchange s.fallbackRandom)
  | .exchange value, .exchange spurious =>
      if !spurious && s.fallbackRandom = value then
        some (⟨next value, .fallback (next value).toUInt32 :: s.returned⟩, .idle)
      else some (s, .exchange s.fallbackRandom)
  | _, _ => none

abbrev State (T : Type) := Threads.System T Shared Pc

def initial : State T := { shared := {}, pcs := fun _ => .idle }

abbrev step : State T → T × Action → Option (State T) := Threads.step advance

end MoonlightScarlet.Sys.FallbackRandom
