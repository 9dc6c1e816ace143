import Mathlib.Tactic.SplitIfs
import MoonlightScarlet.Sys.Connection
/-!
# What one step can do

The steps of the model by their effect.  A `Lifecycle` move takes a connection on its
way from `start_with_audio` to the end of `LiStopConnection`; a `Use` move is everything
else that threads do with connections.
-/

namespace MoonlightScarlet.Sys

variable {T : Type}

inductive Lifecycle (t : T) (s : Shared T) : Pc → Shared T → Pc → Prop
  | claim (hfree : s.connectionActive = .free) :
      Lifecycle t s .idle { s with connectionActive := .starting t } (.start .reset)
  | reset :
      Lifecycle t s (.start .reset)
        ({ s with terminationError := noReportedError, attempts := s.attempts + 1 }.record
          (.reset s.attempts)) (.start (.call s.attempts))
  | startBegin (c : ConnId) :
      Lifecycle t s (.start (.call c)) ({ s with queue := {} }.record (.startBegin c))
        (.start (.running c))
  | startFailed (c : ConnId) :
      Lifecycle t s (.start (.running c)) (s.record (.startEnd c false)) (.start .release)
  | startSucceeded (c : ConnId) :
      Lifecycle t s (.start (.running c))
        ((s.record (.startEnd c true)).modifyState c fun _ => { active := true })
        (.start (.lock c))
  | giveUp : Lifecycle t s (.start .release) { s with connectionActive := .free } .idle
  | startLock (c : ConnId) (hwake : s.wakeLock = none) :
      Lifecycle t s (.start (.lock c)) { s with wakeLock := some t } (.start (.register c))
  | register (c : ConnId) :
      Lifecycle t s (.start (.register c))
        ({ s with videoWakeState := some c }.record (.register c)) (.start (.unlock c))
  | started (c : ConnId) :
      Lifecycle t s (.start (.unlock c))
        ({ s with
          wakeLock := none
          connectionActive := .connected c
          connections := Function.update s.connections c (some {}) }.record (.started c)) .idle
  | stop (c : ConnId) (hobject : s.connections c = some { stopped := false, borrow := none }) :
      Lifecycle t s .idle ((s.setBorrow c (some t)).requestStop c) (.stop c .lock)
  | stopLock (c : ConnId) (hcore : s.coreLock = none) :
      Lifecycle t s (.stop c .lock) { s with coreLock := some t } (.stop c .lockWake)
  | stopLockWake (c : ConnId) (hwake : s.wakeLock = none) :
      Lifecycle t s (.stop c .lockWake) { s with wakeLock := some t } (.stop c .deactivate)
  | deactivate (c : ConnId) :
      Lifecycle t s (.stop c .deactivate)
        (s.modifyState c fun state => { state with active := false }) (.stop c .unregister)
  | unregister (c : ConnId) :
      Lifecycle t s (.stop c .unregister)
        ({ s with videoWakeState := none }.record (.unregister c)) (.stop c .unlockWake)
  | stopUnlockWake (c : ConnId) :
      Lifecycle t s (.stop c .unlockWake) { s with wakeLock := none } (.stop c .call)
  | stopBegin (c : ConnId) :
      Lifecycle t s (.stop c .call) (s.record (.stopBegin c)) (.stop c .running)
  | stopEnd (c : ConnId) :
      Lifecycle t s (.stop c .running) (s.record (.stopEnd c)) (.stop c .release)
  | release (c : ConnId) :
      Lifecycle t s (.stop c .release)
        ({ s with connectionActive := .free }.modifyConnection c
          fun object => { object with stopped := true }) (.stop c .unlock)

inductive Use (t : T) (s : Shared T) : Pc → Shared T → Pc → Prop
  | nothing : Use t s .idle s .idle
  | stopUnlock (c : ConnId) :
      Use t s (.stop c .unlock) ({ s with coreLock := none }.setBorrow c none) .idle
  | frame : Use t s .idle { s with queue := { s.queue with frames := s.queue.frames + 1 } } .idle
  | readError (c : ConnId) (hobject : (s.connections c).isSome) :
      Use t s .idle (s.record (.readError c (reportedError s.terminationError))) .idle
  | callLock (c : ConnId) (call : CoreCall) (hobject : (s.connections c).isSome)
      (hcore : s.coreLock = none) :
      Use t s .idle { s with coreLock := some t } (.call c call .check)
  | callActive (c : ConnId) (call : CoreCall) (hactive : (s.states c).active = true) :
      Use t s (.call c call .check) s (.call c call .core)
  | callInactive (c : ConnId) (call : CoreCall) (hactive : (s.states c).active = false) :
      Use t s (.call c call .check) s (.call c call .unlock)
  | coreCall (c : ConnId) (call : CoreCall) :
      Use t s (.call c call .core) (s.record (.coreCall c call)) (.call c call .unlock)
  | callUnlock (c : ConnId) (call : CoreCall) :
      Use t s (.call c call .unlock) { s with coreLock := none } .idle
  | requestStop (c : ConnId) (hobject : (s.connections c).isSome) :
      Use t s .idle (s.requestStop c) (.wake (.control c) .lock)
  | terminated (c : ConnId) (code : Int32) (hbegun : .startBegin c ∈ s.log) :
      Use t s .idle ({ s with terminationError := code }.record (.terminated c code))
        (.wake (.termination c) .lock)
  | wakeLock (waker : Waker) (hwake : s.wakeLock = none) :
      Use t s (.wake waker .lock) { s with wakeLock := some t } (.wake waker .check)
  | gateOpen (waker : Waker) (hopen : s.gateOpen waker = true) :
      Use t s (.wake waker .check) s (.wake waker .wake)
  | gateClosed (waker : Waker) (hopen : s.gateOpen waker = false) :
      Use t s (.wake waker .check) s (.wake waker .unlock)
  | wake (waker : Waker) :
      Use t s (.wake waker .wake) (s.wakeVideoFrame waker) (.wake waker .unlock)
  | returned (waker : Waker) :
      Use t s (.wake waker .unlock) ({ s with wakeLock := none }.record (.returned waker)) .idle
  | waitStopped (c : ConnId) (object : Connection T) (hobject : s.connections c = some object)
      (hstop : object.stopped = true ∨ (s.states c).stopRequested = true) :
      Use t s .idle (s.record (.waitNone c)) .idle
  | wait (c : ConnId) (hobject : s.connections c = some { stopped := false, borrow := none })
      (hstop : (s.states c).stopRequested = false) :
      Use t s .idle ((s.setBorrow c (some t)).record (.sawNoStop c)) (.wait c .termination)
  | waitTerminated (c : ConnId) (herror : s.terminationError ≠ noReportedError) :
      Use t s (.wait c .termination) ((s.setBorrow c none).record (.waitNone c)) .idle
  | waitFrame (c : ConnId) (herror : s.terminationError = noReportedError) :
      Use t s (.wait c .termination) (s.record (.sawNoTermination c)) (.wait c .frame)
  | woken (c : ConnId) (hwoken : s.queue.woken = true) :
      Use t s (.wait c .frame)
        (({ s with queue := { s.queue with woken := false } }.setBorrow c none).record
          (.waitNone c)) .idle
  | frameReady (c : ConnId) (hwoken : s.queue.woken = false) :
      Use t s (.wait c .frame)
        (({ s with queue := { s.queue with frames := s.queue.frames - 1 } }.setBorrow c
          none).record (.waitFrame c)) .idle

/-- What one step of a thread can do. -/
abbrev Move (t : T) (s : Shared T) (pc : Pc) (s' : Shared T) (pc' : Pc) : Prop :=
  Lifecycle t s pc s' pc' ∨ Use t s pc s' pc'

theorem eq_of_lockCore {t : T} {s s' : Shared T} {pc pc' : Pc}
    (h : s.lockCore t pc = some (s', pc')) :
    s.coreLock = none ∧ s' = { s with coreLock := some t } ∧ pc' = pc := by
  unfold Shared.lockCore at h
  split_ifs at h with hfree
  cases h
  exact ⟨hfree, rfl, rfl⟩

theorem eq_of_lockWake {t : T} {s s' : Shared T} {pc pc' : Pc}
    (h : s.lockWake t pc = some (s', pc')) :
    s.wakeLock = none ∧ s' = { s with wakeLock := some t } ∧ pc' = pc := by
  unfold Shared.lockWake at h
  split_ifs at h with hfree
  cases h
  exact ⟨hfree, rfl, rfl⟩

/-- The actions of an idle thread that are known from the event they log. -/
def Event.From (action : Action) : Event → Prop
  | .terminated c code => action = .terminated c code
  | .readError c _ => action = .terminationError c
  | _ => True

theorem perform_cases {t : T} {s s' : Shared T} {action : Action} {pc : Pc}
    (h : perform t s action = some (s', pc)) :
    Move t s .idle s' pc ∧ ∀ event, s'.log = event :: s.log → event.From action := by
  have hnone : ∀ event, s.log = event :: s.log → event.From action := fun event hlog =>
    absurd hlog.symm (List.cons_ne_self event s.log)
  cases action with
  | start =>
      simp only [perform, Sys.start, Option.some.injEq] at h
      split at h
      · next hfree =>
          cases h
          exact ⟨.inl (.claim hfree), hnone⟩
      · cases h
        exact ⟨.inr .nothing, hnone⟩
  | stop c =>
      simp only [perform, Sys.stop] at h
      split at h
      · next hobject =>
          cases h
          refine ⟨.inl (.stop c hobject), ?_⟩
          rintro _ ⟨⟩
          trivial
      · cases h
        exact ⟨.inr .nothing, hnone⟩
      · cases h
  | call c call =>
      simp only [perform] at h
      split_ifs at h with hobject
      obtain ⟨hcore, rfl, rfl⟩ := eq_of_lockCore h
      exact ⟨.inr (.callLock c call hobject hcore), hnone⟩
  | requestStop c =>
      simp only [perform] at h
      split_ifs at h with hobject
      cases h
      refine ⟨.inr (.requestStop c hobject), ?_⟩
      rintro _ ⟨⟩
      trivial
  | terminated c code =>
      simp only [perform] at h
      split_ifs at h with hbegun
      cases h
      refine ⟨.inr (.terminated c code hbegun), ?_⟩
      rintro _ ⟨⟩
      rfl
  | waitForVideoFrame c =>
      simp only [perform, Sys.waitForVideoFrame] at h
      split at h
      · next stopped hobject =>
          split_ifs at h with hstop
          · cases h
            refine ⟨.inr (.waitStopped c _ hobject (by simpa using hstop)), ?_⟩
            rintro _ ⟨⟩
            trivial
          · cases h
            simp only [Bool.or_eq_true, not_or, Bool.not_eq_true] at hstop
            obtain ⟨rfl, hstop⟩ := hstop
            refine ⟨.inr (.wait c hobject hstop), ?_⟩
            rintro _ ⟨⟩
            trivial
      · cases h
  | terminationError c =>
      simp only [perform] at h
      split at h
      · next hobject =>
          cases h
          refine ⟨.inr (.readError c (by simp [hobject])), ?_⟩
          rintro _ ⟨⟩
          rfl
      · cases h
  | frame =>
      cases h
      exact ⟨.inr .frame, hnone⟩
  | startReturns ok => cases h
  | run => cases h

theorem startStep_cases {t : T} {s s' : Shared T} {pc : StartPc} {pc' : Pc}
    (h : startStep t s pc = some (s', pc')) : Lifecycle t s (.start pc) s' pc' := by
  cases pc with
  | reset =>
      cases h
      exact .reset
  | call c =>
      cases h
      exact .startBegin c
  | running c => cases h
  | release =>
      cases h
      exact .giveUp
  | lock c =>
      obtain ⟨hwake, rfl, rfl⟩ := eq_of_lockWake h
      exact .startLock c hwake
  | register c =>
      cases h
      exact .register c
  | unlock c =>
      cases h
      exact .started c

theorem stopStep_cases {t : T} {s s' : Shared T} {c : ConnId} {pc : StopPc} {pc' : Pc}
    (h : stopStep t s c pc = some (s', pc')) : Move t s (.stop c pc) s' pc' := by
  cases pc with
  | lock =>
      obtain ⟨hcore, rfl, rfl⟩ := eq_of_lockCore h
      exact .inl (.stopLock c hcore)
  | lockWake =>
      obtain ⟨hwake, rfl, rfl⟩ := eq_of_lockWake h
      exact .inl (.stopLockWake c hwake)
  | deactivate =>
      cases h
      exact .inl (.deactivate c)
  | unregister =>
      cases h
      exact .inl (.unregister c)
  | unlockWake =>
      cases h
      exact .inl (.stopUnlockWake c)
  | call =>
      cases h
      exact .inl (.stopBegin c)
  | running =>
      cases h
      exact .inl (.stopEnd c)
  | release =>
      cases h
      exact .inl (.release c)
  | unlock =>
      cases h
      exact .inr (.stopUnlock c)

theorem callStep_cases {t : T} {s s' : Shared T} {c : ConnId} {call : CoreCall} {pc : CallPc}
    {pc' : Pc} (h : callStep s c call pc = some (s', pc')) : Use t s (.call c call pc) s' pc' := by
  cases pc with
  | check =>
      cases h
      cases hactive : (s.states c).active with
      | true => exact .callActive c call hactive
      | false => exact .callInactive c call hactive
  | core =>
      cases h
      exact .coreCall c call
  | unlock =>
      cases h
      exact .callUnlock c call

theorem wakeStep_cases {t : T} {s s' : Shared T} {waker : Waker} {pc : WakePc} {pc' : Pc}
    (h : wakeStep t s waker pc = some (s', pc')) : Use t s (.wake waker pc) s' pc' := by
  cases pc with
  | lock =>
      obtain ⟨hwake, rfl, rfl⟩ := eq_of_lockWake h
      exact .wakeLock waker hwake
  | check =>
      cases h
      cases hopen : s.gateOpen waker with
      | true => exact .gateOpen waker hopen
      | false => exact .gateClosed waker hopen
  | wake =>
      cases h
      exact .wake waker
  | unlock =>
      cases h
      exact .returned waker

theorem waitStep_cases {t : T} {s s' : Shared T} {c : ConnId} {pc : WaitPc} {pc' : Pc}
    (h : waitStep s c pc = some (s', pc')) : Use t s (.wait c pc) s' pc' := by
  cases pc with
  | termination =>
      simp only [waitStep, reportedError] at h
      by_cases herror : s.terminationError = noReportedError
      · simp only [herror, ne_eq, not_true_eq_false, if_false, Option.isSome_none,
          Bool.false_eq_true] at h
        cases h
        exact .waitFrame c herror
      · simp only [ne_eq, herror, not_false_eq_true, if_true, Option.isSome_some] at h
        cases h
        exact .waitTerminated c herror
  | frame =>
      simp only [waitStep] at h
      split_ifs at h with hwoken hframes
      · cases h
        exact .woken c hwoken
      · cases h
        exact .frameReady c (by simpa using hwoken)

/-- Every step is one of the moves. -/
theorem advance_cases {t : T} {s s' : Shared T} {pc pc' : Pc} {action : Action}
    (h : advance t s pc action = some (s', pc')) : Move t s pc s' pc' := by
  unfold advance at h
  split at h
  · exact (perform_cases h).1
  · next c ok =>
      cases ok with
      | true =>
          cases h
          exact .inl (.startSucceeded c)
      | false =>
          cases h
          exact .inl (.startFailed c)
  · exact .inl (startStep_cases h)
  · exact stopStep_cases h
  · exact .inr (callStep_cases h)
  · exact .inr (wakeStep_cases h)
  · exact .inr (waitStep_cases h)
  · cases h

end MoonlightScarlet.Sys
