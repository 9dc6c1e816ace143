import MoonlightScarlet.Sys.Connection
/-!
# Attempts to start a connection

`start_with_audio` with the diagnostics of a failed attempt: the stage and the stage
error of the bridge, the audio renderer and its first error.  Each lock, each atomic
operation and each callback of the core is one step.  The core runs the stage callbacks
and `mls_rust_audio_init` in the thread that called `LiStartConnection`, and
`mls_rust_audio_decode` in a thread of its own, one audio callback at a time.  That
thread has ended when `LiStartConnection` fails or `LiStopConnection` returns.
-/

namespace MoonlightScarlet.Sys.StartAttempt

def stageNone : Int32 := 0

inductive ConnectionError
  | audio (error : String)
  | startFailed (code stage : Int32) (stageError : Option Int32)
  deriving DecidableEq

/-- `CONNECTION_ACTIVE` is true for an attempt, and for the thread that starts or stops its
connection. -/
structure Hold (T : Type) where
  connection : ConnId
  thread : Option T
  deriving DecidableEq

/-- What the core reported, and how the attempts ended. -/
inductive Event
  | alreadyActive
  | stage (connection : ConnId) (stage : Int32)
  | stageError (connection : ConnId) (code : Int32)
  | audioError (connection : ConnId) (error : String)
  | returned (connection : ConnId) (code : Int32)
  | failed (connection : ConnId) (error : ConnectionError)
  deriving DecidableEq

/-- A renderer is known by the attempt that it was given to. -/
structure Shared (T : Type) where
  connectionActive : Option (Hold T) := none
  rendererLock : Option T := none
  audioRenderer : Option ConnId := none
  errorLock : Option T := none
  audioError : Option String := none
  audioFailed : Bool := false
  lastStage : Int32 := 0
  stageError : Int32 := 0
  /-- The thread in an audio callback. -/
  audioCallback : Option T := none
  /-- The attempt that the core decodes audio for. -/
  audioStream : Option ConnId := none
  attempts : Nat := 0
  log : List Event := []

/-! ## Program counters -/

/-- Where a call of `start_with_audio` stands that has set `CONNECTION_ACTIVE`. -/
inductive StartPc
  | lockRenderer (renderer : Bool)
  | install (renderer : Bool)
  | lockError
  | clearError
  | clearFailed
  | resetStage
  | resetStageError
  | running
  | stageFailed (code : Int32)
  | lockAudioError (code : Int32)
  | readAudioError (code : Int32)
  | lockClear (code : Int32) (error : Option String)
  | clear (code : Int32) (error : Option String)
  | release (code : Int32) (error : Option String)
  | readStage (code : Int32)
  | readStageError (code stage : Int32)
  deriving DecidableEq

inductive StopPc
  | running
  | lockRenderer
  | clear
  | release
  deriving DecidableEq

inductive Callback
  | init
  | decode
  deriving DecidableEq

inductive AudioPc
  | check (invalid : Option String)
  | lockRenderer
  | render
  | storeFailed (error : String)
  | lockError (error : String)
  | record (error : String)
  deriving DecidableEq

inductive Pc
  | idle
  | start (connection : ConnId) (pc : StartPc)
  | stop (connection : ConnId) (pc : StopPc)
  | audio (callback : Callback) (connection : ConnId) (pc : AudioPc)
  deriving DecidableEq

/-- What a thread does next.  The core chooses its callbacks and what it returns; a renderer
chooses its result, where a panic is an error too. -/
inductive Action
  | start (renderer : Bool)
  | stop
  | decode (invalid : Option String)
  | stage (stage : Int32)
  | stageFailed (stage code : Int32)
  | audioInit (invalid : Option String)
  | audioStarted
  | startReturns (code : Int32)
  | rendererReturns (error : Option String)
  | run
  deriving DecidableEq

/-! ## Steps -/

variable {T : Type}

namespace Shared

variable (s : Shared T)

def record (event : Event) : Shared T := { s with log := event :: s.log }

def takeRenderer (t : T) (pc : Pc) : Option (Shared T × Pc) :=
  if s.rendererLock = none then some ({ s with rendererLock := some t }, pc) else none

def takeError (t : T) (pc : Pc) : Option (Shared T × Pc) :=
  if s.errorLock = none then some ({ s with errorLock := some t }, pc) else none

end Shared

/-- `start_with_audio` up to the compare-exchange; a refused call returns. -/
def start (t : T) (s : Shared T) (renderer : Bool) : Shared T × Pc :=
  match s.connectionActive with
  | none =>
      ({ s with connectionActive := some ⟨s.attempts, some t⟩, attempts := s.attempts + 1 },
        .start s.attempts (.lockRenderer renderer))
  | some _ => (s.record .alreadyActive, .idle)

def startStep (t : T) (s : Shared T) (c : ConnId) : StartPc → Option (Shared T × Pc)
  -- `install_audio_renderer`
  | .lockRenderer renderer => s.takeRenderer t (.start c (.install renderer))
  | .install renderer =>
      some ({ s with
        rendererLock := none
        audioRenderer := if renderer then some c else none }, .start c .lockError)
  | .lockError => s.takeError t (.start c .clearError)
  | .clearError => some ({ s with errorLock := none, audioError := none }, .start c .clearFailed)
  | .clearFailed => some ({ s with audioFailed := false }, .start c .resetStage)
  -- `mls_start_connection`
  | .resetStage => some ({ s with lastStage := stageNone }, .start c .resetStageError)
  | .resetStageError => some ({ s with stageError := noReportedError }, .start c .running)
  | .running => none
  | .stageFailed code =>
      some ({ s with stageError := code }.record (.stageError c code), .start c .running)
  -- `current_audio_error`
  | .lockAudioError code => s.takeError t (.start c (.readAudioError code))
  | .readAudioError code =>
      some ({ s with errorLock := none }, .start c (.lockClear code s.audioError))
  -- `clear_audio_renderer`
  | .lockClear code error => s.takeRenderer t (.start c (.clear code error))
  | .clear code error =>
      some ({ s with rendererLock := none, audioRenderer := none }, .start c (.release code error))
  | .release _ (some error) =>
      some ({ s with connectionActive := none }.record (.failed c (.audio error)), .idle)
  | .release code none => some ({ s with connectionActive := none }, .start c (.readStage code))
  | .readStage code => some (s, .start c (.readStageError code s.lastStage))
  | .readStageError code stage =>
      some (s.record (.failed c (.startFailed code stage (reportedError s.stageError))), .idle)

/-- An audio callback of invalid arguments fails before it asks for the renderer. -/
def AudioPc.enter : Option String → AudioPc
  | some error => .storeFailed error
  | none => .lockRenderer

def Callback.returnTo (c : ConnId) : Callback → Pc
  | .init => .start c .running
  | .decode => .idle

def callbackReturns (s : Shared T) (callback : Callback) (c : ConnId) : Shared T × Pc :=
  ({ s with audioCallback := none }, callback.returnTo c)

/-- `LiStartConnection`, on its way and at its end. -/
def coreStep (t : T) (s : Shared T) (c : ConnId) : Action → Option (Shared T × Pc)
  | .stage stage => some ({ s with lastStage := stage }.record (.stage c stage), .start c .running)
  | .stageFailed stage code =>
      some ({ s with lastStage := stage }.record (.stage c stage), .start c (.stageFailed code))
  | .audioInit invalid =>
      if s.audioCallback = none then
        some ({ s with audioCallback := some t }, .audio .init c (.enter invalid))
      else none
  | .audioStarted => some ({ s with audioStream := some c }, .start c .running)
  | .startReturns code =>
      if code = 0 then
        some ({ s with connectionActive := some ⟨c, none⟩ }.record (.returned c code), .idle)
      else if s.audioCallback = none then
        some ({ s with audioStream := none }.record (.returned c code),
          .start c (.lockAudioError code))
      else none
  | _ => none

/-- `initialize` or `decode_and_play` of the renderer returns; without a renderer there is
nothing to fail. -/
def rendererReturns (s : Shared T) (callback : Callback) (c : ConnId) (error : Option String) :
    Shared T × Pc :=
  let s' := { s with rendererLock := none }
  match if s.audioRenderer.isSome then error else none with
  | some error => (s', .audio callback c (.storeFailed error))
  | none => callbackReturns s' callback c

def audioStep (t : T) (s : Shared T) (callback : Callback) (c : ConnId) :
    AudioPc → Option (Shared T × Pc)
  | .check invalid =>
      some (if s.audioFailed then callbackReturns s callback c
        else (s, .audio callback c (.enter invalid)))
  | .lockRenderer => s.takeRenderer t (.audio callback c .render)
  | .render => none
  -- `record_audio_error`
  | .storeFailed error =>
      some ({ s with audioFailed := true }, .audio callback c (.lockError error))
  | .lockError error => s.takeError t (.audio callback c (.record error))
  | .record error =>
      some (callbackReturns ({ s with
        errorLock := none
        audioError := if s.audioError = none then some error else s.audioError }.record
          (.audioError c error)) callback c)

/-- `stop`, or the drop of the connection, without the locks that the failed attempts do not
take. -/
def stopStep (t : T) (s : Shared T) (c : ConnId) : StopPc → Option (Shared T × Pc)
  | .running =>
      if s.audioCallback = none then
        some ({ s with audioStream := none }, .stop c .lockRenderer)
      else none
  | .lockRenderer => s.takeRenderer t (.stop c .clear)
  | .clear => some ({ s with rendererLock := none, audioRenderer := none }, .stop c .release)
  | .release => some ({ s with connectionActive := none }, .idle)

/-- What an idle thread begins: a call of the crate, or the decoder thread of the core a
callback. -/
def perform (t : T) (s : Shared T) : Action → Option (Shared T × Pc)
  | .start renderer => some (start t s renderer)
  | .stop =>
      match s.connectionActive with
      | some ⟨c, none⟩ => some ({ s with connectionActive := some ⟨c, some t⟩ }, .stop c .running)
      | _ => none
  | .decode invalid =>
      match s.audioStream, s.audioCallback with
      | some c, none =>
          some ({ s with audioCallback := some t }, .audio .decode c (.check invalid))
      | _, _ => none
  | _ => none

def advance (t : T) (s : Shared T) : Pc → Action → Option (Shared T × Pc)
  | .idle, action => perform t s action
  | .start c .running, action => coreStep t s c action
  | .start c pc, .run => startStep t s c pc
  | .stop c pc, .run => stopStep t s c pc
  | .audio callback c .render, .rendererReturns error => some (rendererReturns s callback c error)
  | .audio callback c pc, .run => audioStep t s callback c pc
  | _, _ => none

abbrev System (T : Type) := Support.Threads.System T (Shared T) Pc

abbrev step [DecidableEq T] : System T → T × Action → Option (System T) :=
  Support.Threads.step advance

def System.init : System T := ⟨{}, fun _ => .idle⟩

end MoonlightScarlet.Sys.StartAttempt
