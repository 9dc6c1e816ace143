import Mathlib.Tactic.SplitIfs
import MoonlightScarlet.Sys.StartAttempt
/-!
# What one step of an attempt can do

The steps of the model by what they do to the shared data, with the phase of the attempt
in place of the program counter.
-/

namespace MoonlightScarlet.Sys.StartAttempt

variable {T : Type}

/-- What a step stores to the stage or to the stage error of the bridge. -/
inductive Store
  | nothing
  | stage
  | stageError (reported : Option Int32)
  deriving DecidableEq

def Store.isStageError : Store → Bool
  | .stageError _ => true
  | _ => false

def StartPc.stores : StartPc → Action → Store
  | .resetStage, _ => .stage
  | .resetStageError, _ => .stageError none
  | .running, .stage _ => .stage
  | .running, .stageFailed _ _ => .stage
  | .stageFailed code, _ => .stageError (some code)
  | _, _ => .nothing

def Pc.stores : Pc → Action → Store
  | .start _ pc, action => pc.stores action
  | _, _ => .nothing

/-- What a program counter says about the attempt. -/
inductive Phase
  | outside
  | fresh (connection : ConnId)
  | cleared (connection : ConnId)
  | staged (connection : ConnId)
  | core (connection : ConnId)
  | initializing (connection : ConnId)
  | decoding (connection : ConnId)
  | returned (connection : ConnId) (code : Int32)
  | settled (connection : ConnId) (code : Int32) (error : Option String)
  | dropped (connection : ConnId) (code : Int32) (error : Option String)
  | reading (connection : ConnId) (code : Int32)
  | readingError (connection : ConnId) (code stage : Int32)
  | stopping (connection : ConnId)
  | stopped (connection : ConnId)
  | emptied (connection : ConnId)

def StartPc.phase (c : ConnId) : StartPc → Phase
  | .lockRenderer _ => .fresh c
  | .install _ => .fresh c
  | .lockError => .fresh c
  | .clearError => .fresh c
  | .clearFailed => .cleared c
  | .resetStage => .cleared c
  | .resetStageError => .staged c
  | .running => .core c
  | .stageFailed _ => .core c
  | .lockAudioError code => .returned c code
  | .readAudioError code => .returned c code
  | .lockClear code error => .settled c code error
  | .clear code error => .settled c code error
  | .release code error => .dropped c code error
  | .readStage code => .reading c code
  | .readStageError code stage => .readingError c code stage

def StopPc.phase (c : ConnId) : StopPc → Phase
  | .running => .stopping c
  | .lockRenderer => .stopped c
  | .clear => .stopped c
  | .release => .emptied c

def Callback.phase (c : ConnId) : Callback → Phase
  | .init => .initializing c
  | .decode => .decoding c

def Pc.phase : Pc → Phase
  | .idle => .outside
  | .start c pc => pc.phase c
  | .stop c pc => pc.phase c
  | .audio callback c _ => callback.phase c

/-- The steps by what they do to the data and to the phase of their thread. -/
inductive Move (t : T) (s : Shared T) : Store → Phase → Shared T → Phase → Prop
  | quiet (phase : Phase) (rendererLock errorLock : Option T) (audioFailed : Bool) :
      Move t s .nothing phase { s with rendererLock, errorLock, audioFailed } phase
  | claim (hfree : s.connectionActive = none) :
      Move t s .nothing .outside
        { s with connectionActive := some ⟨s.attempts, some t⟩, attempts := s.attempts + 1 }
        (.fresh s.attempts)
  | refused : Move t s .nothing .outside (s.record .alreadyActive) .outside
  | install (c : ConnId) (renderer : Bool) :
      Move t s .nothing (.fresh c)
        { s with rendererLock := none, audioRenderer := if renderer then some c else none }
        (.fresh c)
  | clearError (c : ConnId) :
      Move t s .nothing (.fresh c) { s with errorLock := none, audioError := none } (.cleared c)
  | resetStage (c : ConnId) :
      Move t s .stage (.cleared c) { s with lastStage := stageNone } (.staged c)
  | resetStageError (c : ConnId) :
      Move t s (.stageError none) (.staged c) { s with stageError := noReportedError } (.core c)
  | stage (c : ConnId) (stage : Int32) :
      Move t s .stage (.core c) ({ s with lastStage := stage }.record (.stage c stage)) (.core c)
  | stageFailed (c : ConnId) (code : Int32) :
      Move t s (.stageError (some code)) (.core c)
        ({ s with stageError := code }.record (.stageError c code)) (.core c)
  | audioInit (c : ConnId) (hserial : s.audioCallback = none) :
      Move t s .nothing (.core c) { s with audioCallback := some t } (.initializing c)
  | audioStarted (c : ConnId) :
      Move t s .nothing (.core c) { s with audioStream := some c } (.core c)
  | succeeded (c : ConnId) (code : Int32) :
      Move t s .nothing (.core c)
        ({ s with connectionActive := some ⟨c, none⟩ }.record (.returned c code)) .outside
  | returned (c : ConnId) (code : Int32) (hjoined : s.audioCallback = none) :
      Move t s .nothing (.core c) ({ s with audioStream := none }.record (.returned c code))
        (.returned c code)
  | readAudioError (c : ConnId) (code : Int32) :
      Move t s .nothing (.returned c code) { s with errorLock := none }
        (.settled c code s.audioError)
  | clear (c : ConnId) (code : Int32) (error : Option String) :
      Move t s .nothing (.settled c code error)
        { s with rendererLock := none, audioRenderer := none } (.dropped c code error)
  | releaseAudio (c : ConnId) (code : Int32) (error : String) :
      Move t s .nothing (.dropped c code (some error))
        ({ s with connectionActive := none }.record (.failed c (.audio error))) .outside
  | release (c : ConnId) (code : Int32) :
      Move t s .nothing (.dropped c code none) { s with connectionActive := none }
        (.reading c code)
  | readStage (c : ConnId) (code : Int32) :
      Move t s .nothing (.reading c code) s (.readingError c code s.lastStage)
  | readStageError (c : ConnId) (code stage : Int32) :
      Move t s .nothing (.readingError c code stage)
        (s.record (.failed c (.startFailed code stage (reportedError s.stageError)))) .outside
  | decode (c : ConnId) (hstream : s.audioStream = some c) (hserial : s.audioCallback = none) :
      Move t s .nothing .outside { s with audioCallback := some t } (.decoding c)
  | callbackReturns (callback : Callback) (c : ConnId) (rendererLock : Option T) :
      Move t s .nothing (callback.phase c) { s with rendererLock, audioCallback := none }
        (callback.returnTo c).phase
  | recordError (callback : Callback) (c : ConnId) (error : String) :
      Move t s .nothing (callback.phase c)
        ({ s with
          errorLock := none
          audioError := if s.audioError = none then some error else s.audioError
          audioCallback := none }.record (.audioError c error))
        (callback.returnTo c).phase
  | stop (c : ConnId) (hactive : s.connectionActive = some ⟨c, none⟩) :
      Move t s .nothing .outside { s with connectionActive := some ⟨c, some t⟩ } (.stopping c)
  | stopReturns (c : ConnId) (hjoined : s.audioCallback = none) :
      Move t s .nothing (.stopping c) { s with audioStream := none } (.stopped c)
  | stopClear (c : ConnId) :
      Move t s .nothing (.stopped c) { s with rendererLock := none, audioRenderer := none }
        (.emptied c)
  | stopRelease (c : ConnId) :
      Move t s .nothing (.emptied c) { s with connectionActive := none } .outside

theorem eq_of_takeRenderer {t : T} {s s' : Shared T} {pc pc' : Pc}
    (h : s.takeRenderer t pc = some (s', pc')) :
    s' = { s with rendererLock := some t } ∧ pc' = pc := by
  unfold Shared.takeRenderer at h
  split_ifs at h
  cases h
  exact ⟨rfl, rfl⟩

theorem eq_of_takeError {t : T} {s s' : Shared T} {pc pc' : Pc}
    (h : s.takeError t pc = some (s', pc')) :
    s' = { s with errorLock := some t } ∧ pc' = pc := by
  unfold Shared.takeError at h
  split_ifs at h
  cases h
  exact ⟨rfl, rfl⟩

section Moves

variable {t : T} {s s' : Shared T} {pc' : Pc} {c : ConnId}

theorem perform_move {action : Action} (h : perform t s action = some (s', pc')) :
    Move t s .nothing .outside s' pc'.phase := by
  cases action with
  | start renderer =>
      simp only [perform, start, Option.some.injEq] at h
      split at h
      · next hfree =>
          cases h
          exact .claim hfree
      · cases h
        exact .refused
  | stop =>
      simp only [perform] at h
      split at h
      · next hactive =>
          cases h
          exact .stop _ hactive
      · cases h
  | decode invalid =>
      simp only [perform] at h
      split at h
      · next hstream hserial =>
          cases h
          exact .decode _ hstream hserial
      · cases h
  | _ => cases h

theorem startStep_move {pc : StartPc} (h : startStep t s c pc = some (s', pc')) :
    Move t s (pc.stores .run) (pc.phase c) s' pc'.phase := by
  cases pc with
  | lockRenderer renderer =>
      obtain ⟨rfl, rfl⟩ := eq_of_takeRenderer h
      exact .quiet (.fresh c) _ _ _
  | install renderer =>
      cases h
      exact .install c renderer
  | lockError =>
      obtain ⟨rfl, rfl⟩ := eq_of_takeError h
      exact .quiet (.fresh c) _ _ _
  | clearError =>
      cases h
      exact .clearError c
  | clearFailed =>
      cases h
      exact .quiet (.cleared c) _ _ _
  | resetStage =>
      cases h
      exact .resetStage c
  | resetStageError =>
      cases h
      exact .resetStageError c
  | running => cases h
  | stageFailed code =>
      cases h
      exact .stageFailed c code
  | lockAudioError code =>
      obtain ⟨rfl, rfl⟩ := eq_of_takeError h
      exact .quiet (.returned c code) _ _ _
  | readAudioError code =>
      cases h
      exact .readAudioError c code
  | lockClear code error =>
      obtain ⟨rfl, rfl⟩ := eq_of_takeRenderer h
      exact .quiet (.settled c code error) _ _ _
  | clear code error =>
      cases h
      exact .clear c code error
  | release code error =>
      cases error with
      | none =>
          cases h
          exact .release c code
      | some error =>
          cases h
          exact .releaseAudio c code error
  | readStage code =>
      cases h
      exact .readStage c code
  | readStageError code stage =>
      cases h
      exact .readStageError c code stage

/-- A step behind a guard. -/
theorem of_ite_some {α : Type} {p : Prop} [Decidable p] {x y : α}
    (h : (if p then some x else none) = some y) : p ∧ x = y := by
  split at h
  · exact ⟨‹p›, Option.some.inj h⟩
  · cases h

theorem coreStep_move {action : Action} (h : coreStep t s c action = some (s', pc')) :
    Move t s (StartPc.running.stores action) (.core c) s' pc'.phase := by
  cases action with
  | stage stage =>
      cases h
      exact .stage c stage
  | stageFailed stage code =>
      cases h
      exact .stage c stage
  | audioInit invalid =>
      obtain ⟨hserial, hstep⟩ := of_ite_some h
      cases hstep
      exact .audioInit c hserial
  | audioStarted =>
      cases h
      exact .audioStarted c
  | startReturns code =>
      by_cases hzero : code = 0
      · subst hzero
        cases h
        exact .succeeded c 0
      · have hstep := (if_neg hzero).symm.trans h
        obtain ⟨hjoined, hstep⟩ := of_ite_some hstep
        cases hstep
        exact .returned c code hjoined
  | _ => cases h

theorem rendererReturns_move {callback : Callback} {error : Option String}
    (h : rendererReturns s callback c error = (s', pc')) :
    Move t s .nothing (callback.phase c) s' pc'.phase := by
  unfold rendererReturns at h
  dsimp only at h
  split at h
  · cases h
    exact .quiet (callback.phase c) _ _ _
  · cases h
    exact .callbackReturns callback c none

theorem audioStep_move {callback : Callback} {pc : AudioPc}
    (h : audioStep t s callback c pc = some (s', pc')) :
    Move t s .nothing (callback.phase c) s' pc'.phase := by
  cases pc with
  | check invalid =>
      simp only [audioStep, Option.some.injEq] at h
      split_ifs at h with hfailed
      · cases h
        exact .callbackReturns callback c s.rendererLock
      · cases h
        exact .quiet (callback.phase c) _ _ _
  | lockRenderer =>
      obtain ⟨rfl, rfl⟩ := eq_of_takeRenderer h
      exact .quiet (callback.phase c) _ _ _
  | render => cases h
  | storeFailed error =>
      cases h
      exact .quiet (callback.phase c) _ _ _
  | lockError error =>
      obtain ⟨rfl, rfl⟩ := eq_of_takeError h
      exact .quiet (callback.phase c) _ _ _
  | record error =>
      cases h
      exact .recordError callback c error

theorem stopStep_move {pc : StopPc} (h : stopStep t s c pc = some (s', pc')) :
    Move t s .nothing (pc.phase c) s' pc'.phase := by
  cases pc with
  | running =>
      simp only [stopStep] at h
      split_ifs at h with hjoined
      cases h
      exact .stopReturns c hjoined
  | lockRenderer =>
      obtain ⟨rfl, rfl⟩ := eq_of_takeRenderer h
      exact .quiet (.stopped c) _ _ _
  | clear =>
      cases h
      exact .stopClear c
  | release =>
      cases h
      exact .stopRelease c

theorem advance_move {pc : Pc} {action : Action} (h : advance t s pc action = some (s', pc')) :
    Move t s (pc.stores action) pc.phase s' pc'.phase := by
  unfold advance at h
  split at h
  · exact perform_move h
  · exact coreStep_move h
  · exact startStep_move h
  · exact stopStep_move h
  · exact rendererReturns_move (Option.some.inj h)
  · exact audioStep_move h
  · cases h

end Moves

end MoonlightScarlet.Sys.StartAttempt
