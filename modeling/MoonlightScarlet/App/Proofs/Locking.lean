import MoonlightScarlet.App.Locking
import MoonlightScarlet.Support.Runs
import Mathlib.Data.Nat.Basic
/-!
# No deadlock around the C core

The states of a session come first, then the core lock, then the join of the workers,
then the locks that callbacks take.
-/

namespace MoonlightScarlet.App.Locking

open Support.LockOrder

/-- The order of the mutexes; the join of the workers has rank 2. -/
def Mutex.rank : Mutex → Nat
  | .remoteInput _ | .gamepads _ => 0
  | .coreConnection => 1
  | .videoWakeState | .audioRenderer | .audioError => 3

section Balanced

variable {held : List Mutex}

theorem balanced_guard {mutex : Mutex} (h : ∀ other ∈ held, other.rank < mutex.rank) :
    Balanced Mutex.rank 2 held (locked mutex [] : Actions) :=
  Balanced.locked h Balanced.nil

theorem balanced_control (h : ∀ other ∈ held, other.rank < 1) (calls : List ControlCall) :
    Balanced Mutex.rank 2 held (controlCalls calls) := by
  apply Balanced.flatten
  intro actions hactions
  obtain ⟨call, -, rfl⟩ := List.mem_map.mp hactions
  cases call with
  | rejected => exact Balanced.nil
  | supportsTouch => exact balanced_guard h
  | sendInput => exact balanced_guard h

theorem balanced_audio (h : ∀ other ∈ held, other.rank < 3) (call : AudioCall) :
    Balanced Mutex.rank 2 held call.actions := by
  cases call with
  | skipped => exact Balanced.nil
  | invalid => exact balanced_guard h
  | rendered failed =>
      refine (balanced_guard h).append ?_
      cases failed with
      | false => exact Balanced.nil
      | true => exact balanced_guard h

theorem balanced_stop (stopped : Bool) : Balanced Mutex.rank 2 [] (stop stopped) := by
  cases stopped with
  | true => exact Balanced.nil
  | false =>
      refine Balanced.locked (by simp) (Balanced.append (Balanced.append ?_ ?_) ?_)
      · exact balanced_guard (by simp [Mutex.rank])
      · exact Balanced.join (by simp [Mutex.rank])
      · exact balanced_guard (by simp [Mutex.rank])

theorem balanced_start (call : StartCall) : Balanced Mutex.rank 2 [] (startWithAudio call) := by
  have hguard : ∀ mutex, Balanced Mutex.rank 2 [] (locked mutex [] : Actions) :=
    fun mutex => balanced_guard (by simp)
  have hstep : ∀ step : CoreStep, Balanced Mutex.rank 2 [] step.actions := by
    intro step
    cases step with
    | createThread => exact Balanced.spawn _
    | audioInit call => exact balanced_audio (by simp) call
  cases call with
  | refused => exact Balanced.nil
  | attempted steps failed =>
      have hsteps : Balanced Mutex.rank 2 [] (steps.flatMap CoreStep.actions) := by
        apply Balanced.flatten
        intro actions hactions
        obtain ⟨step, -, rfl⟩ := List.mem_map.mp hactions
        exact hstep step
      have hinstall : Balanced Mutex.rank 2 [] installAudioRenderer :=
        (hguard _).append (hguard _)
      cases failed with
      | false => exact (hinstall.append (hsteps.append Balanced.nil)).append (hguard _)
      | true =>
          exact (hinstall.append (hsteps.append (Balanced.join (by simp)))).append
            ((hguard _).append (hguard _))

theorem balanced_call (call : Call) : Balanced Mutex.rank 2 [] call.actions := by
  have hguard : ∀ mutex, Balanced Mutex.rank 2 [] (locked mutex [] : Actions) :=
    fun mutex => balanced_guard (by simp)
  cases call with
  | control calls => exact balanced_control (by simp) calls
  | requestStop => exact hguard _
  | audioError => exact hguard _
  | startWithAudio call => exact balanced_start call
  | stop stopped => exact balanced_stop stopped
  | inputState session => exact hguard _
  | sendTouch session calls =>
      exact Balanced.locked (by simp) (balanced_control (by simp [Mutex.rank]) calls)
  | sendAndRecord session call sent =>
      have hcall := @balanced_control [] (by simp) [call]
      rw [controlCalls, List.flatMap_singleton] at hcall
      refine hcall.append ?_
      cases sent with
      | false => exact Balanced.nil
      | true => exact hguard _
  | releaseInput session calls => exact (hguard _).append (balanced_control (by simp) calls)
  | gamepadState session => exact hguard _
  | syncGamepads session calls =>
      exact Balanced.locked (by simp) (balanced_control (by simp [Mutex.rank]) calls)
  | audio call => exact balanced_audio (by simp) call
  | internalConnectionTerminated => exact Balanced.spawn _
  | connectionTerminated => exact hguard _

end Balanced

/-- The callbacks take only the locks above the join, and join nothing. -/
theorem above_worker {call : Call} (h : Role.coreWorker.calls call = true) :
    Above Mutex.rank 2 call.actions := by
  have hguard : ∀ mutex : Mutex, mutex.rank = 3 → Above Mutex.rank 2 (locked mutex [] : Actions) :=
    fun mutex hrank => Above.locked (by omega) Above.nil
  cases call with
  | audio call =>
      cases call with
      | skipped => exact Above.nil
      | invalid => exact hguard _ rfl
      | rendered failed =>
          refine (hguard _ rfl).append ?_
          cases failed with
          | false => exact Above.nil
          | true => exact hguard _ rfl
  | internalConnectionTerminated =>
      intro action haction
      rw [List.mem_singleton.mp haction]
      simp
  | connectionTerminated => exact hguard _ rfl
  | _ => simp [Role.calls] at h

theorem rules_ranked : rules.Ranked Mutex.rank 2 where
  ordered := by
    intro role call rest hcode
    simp only [rules, Option.ite_none_right_eq_some, Option.some.injEq] at hcode
    rw [← hcode.2]
    exact (balanced_call call).ordered
  above := by
    intro role call rest hjoined hcode
    simp only [rules, Option.ite_none_right_eq_some, Option.some.injEq] at hcode
    rw [← hcode.2]
    have hrole : role = .coreWorker := by simpa [rules] using hjoined
    exact above_worker (hrole ▸ hcode.1)

/-- In no state of a run do threads wait in a circle, each for a lock that the next one
holds or for the end of the next one. -/
theorem no_deadlock {T : Type} [DecidableEq T] (labels : List (T × Move T Role Call)) :
    Support.Runs.Always (step rules) (fun s => ∀ t, ¬Relation.TransGen (WaitsFor s) t t)
      {} labels :=
  Support.Runs.Always.of_invariant (fun _ _ _ hs => hs.step rules_ranked)
    (fun _ hs => hs.acyclic) Sound.init labels

/-- Threads do wait in a chain: 0 holds the gamepads and needs the core lock, which 1 holds
while it joins worker 2, which is about to lock the renderer. -/
example : (Support.Runs.run (step rules) {}
    [(1, .create .application), (1, .begin (.startWithAudio (.attempted [.createThread] false))),
      (1, .next 1), (1, .next 1), (1, .next 1), (1, .next 1), (1, .next 2), (1, .next 1),
      (1, .next 1), (0, .create .application), (0, .begin (.syncGamepads 0 [.sendInput])),
      (0, .next 0), (1, .begin (.stop false)), (1, .next 1), (1, .next 1), (1, .next 1),
      (2, .begin (.audio (.rendered false)))]).map
        (fun s => (s.holder .coreConnection, s.holder (.gamepads 0), s.workers)) =
    some (some 1, some 0, [2]) := by decide

end MoonlightScarlet.App.Locking
