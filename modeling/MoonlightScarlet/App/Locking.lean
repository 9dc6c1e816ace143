import MoonlightScarlet.Support.LockOrder
/-!
# Locks around the C core

Which mutexes each function takes, in which order, and where it waits for the threads
that the core created.  What the functions do besides is left out; a branch that locks
differently is a parameter.  Renderers take none of these locks.
-/

namespace MoonlightScarlet.App.Locking

open Support.LockOrder

/-- The states of input and gamepads belong to a session; the other mutexes are statics. -/
inductive Mutex
  | remoteInput (session : Nat)
  | gamepads (session : Nat)
  | coreConnection
  | videoWakeState
  | audioRenderer
  | audioError
  deriving DecidableEq, Repr

inductive Role
  | application
  | coreWorker
  | terminationCallback
  deriving DecidableEq, Repr

abbrev Actions := List (Action Mutex Role)

/-! ## connection.rs -/

/-- A method of `ConnectionControl` that talks to the core.  Some reject their arguments
before they lock. -/
inductive ControlCall
  | rejected
  | supportsTouch
  | sendInput
  deriving DecidableEq, Repr

def ControlCall.actions : ControlCall → Actions
  | .rejected => []
  | .supportsTouch => locked .coreConnection []
  | .sendInput => locked .coreConnection []

def requestStop : Actions := locked .videoWakeState []

/-- `mls_rust_connection_terminated`. -/
def connectionTerminated : Actions := locked .videoWakeState []

/-! ## audio.rs -/

/-- The old renderer is dropped between the two scopes. -/
def installAudioRenderer : Actions := locked .audioRenderer [] ++ locked .audioError []

def clearAudioRenderer : Actions := locked .audioRenderer []

def currentAudioError : Actions := locked .audioError []

def recordAudioError : Actions := locked .audioError []

/-- A call of `mls_rust_audio_init` or `mls_rust_audio_decode`: nothing is done after an
error, the arguments are invalid, or the renderer is asked. -/
inductive AudioCall
  | skipped
  | invalid
  | rendered (failed : Bool)
  deriving DecidableEq, Repr

/-- The renderer's guard is dropped with the closure, before an error is recorded. -/
def AudioCall.actions : AudioCall → Actions
  | .skipped => []
  | .invalid => recordAudioError
  | .rendered failed => locked .audioRenderer [] ++ if failed then recordAudioError else []

/-! ## Connection.c -/

/-- What `LiStartConnection` does in its stages; the audio renderer is initialized on the
thread that starts. -/
inductive CoreStep
  | createThread
  | audioInit (call : AudioCall)
  deriving DecidableEq, Repr

def CoreStep.actions : CoreStep → Actions
  | .createThread => [.spawn .coreWorker]
  | .audioInit call => call.actions

/-- Joins the threads of every stage that was reached. -/
def liStopConnection : Actions := [.join]

def liStartConnection (steps : List CoreStep) (failed : Bool) : Actions :=
  steps.flatMap CoreStep.actions ++ if failed then liStopConnection else []

/-- `ClInternalConnectionTerminated` creates a detached thread. -/
def internalConnectionTerminated : Actions := [.spawn .terminationCallback]

/-! ## Starting and stopping -/

/-- A call of `Connection::start_with_audio`. -/
inductive StartCall
  | refused
  | attempted (steps : List CoreStep) (failed : Bool)
  deriving DecidableEq, Repr

def startWithAudio : StartCall → Actions
  | .refused => []
  | .attempted steps failed =>
      installAudioRenderer ++ liStartConnection steps failed ++
        if failed then currentAudioError ++ clearAudioRenderer else locked .videoWakeState []

/-- `Connection::stop`, and `drop`.  The core lock is held while the workers are joined,
the wake gate is not. -/
def stop (stopped : Bool) : Actions :=
  if stopped then []
  else locked .coreConnection
    (locked .videoWakeState [] ++ liStopConnection ++ clearAudioRenderer)

/-! ## input.rs and gamepad.rs -/

def controlCalls (calls : List ControlCall) : Actions := calls.flatMap ControlCall.actions

/-- `RemoteInput::send_touch` calls the control while it holds the input state. -/
def sendTouch (session : Nat) (calls : List ControlCall) : Actions :=
  locked (.remoteInput session) (controlCalls calls)

/-- `send_key` and `send_mouse_button` record what was sent. -/
def sendAndRecord (session : Nat) (call : ControlCall) (sent : Bool) : Actions :=
  call.actions ++ if sent then locked (.remoteInput session) [] else []

/-- `release_all` and `release_mouse` take the state out before they send. -/
def releaseInput (session : Nat) (calls : List ControlCall) : Actions :=
  locked (.remoteInput session) [] ++ controlCalls calls

/-- `RemoteGamepads::sync` and `release_all` send while they hold the gamepads. -/
def syncGamepads (session : Nat) (calls : List ControlCall) : Actions :=
  locked (.gamepads session) (controlCalls calls)

/-! ## Calls of the threads -/

inductive Call
  | control (calls : List ControlCall)
  | requestStop
  | audioError
  | startWithAudio (call : StartCall)
  | stop (stopped : Bool)
  | inputState (session : Nat)
  | sendTouch (session : Nat) (calls : List ControlCall)
  | sendAndRecord (session : Nat) (call : ControlCall) (sent : Bool)
  | releaseInput (session : Nat) (calls : List ControlCall)
  | gamepadState (session : Nat)
  | syncGamepads (session : Nat) (calls : List ControlCall)
  | audio (call : AudioCall)
  | internalConnectionTerminated
  | connectionTerminated
  deriving DecidableEq, Repr

def Call.actions : Call → Actions
  | .control calls => controlCalls calls
  | .requestStop => Locking.requestStop
  | .audioError => currentAudioError
  | .startWithAudio call => Locking.startWithAudio call
  | .stop stopped => Locking.stop stopped
  | .inputState session => locked (.remoteInput session) []
  | .sendTouch session calls => Locking.sendTouch session calls
  | .sendAndRecord session call sent => Locking.sendAndRecord session call sent
  | .releaseInput session calls => Locking.releaseInput session calls
  | .gamepadState session => locked (.gamepads session) []
  | .syncGamepads session calls => Locking.syncGamepads session calls
  | .audio call => call.actions
  | .internalConnectionTerminated => Locking.internalConnectionTerminated
  | .connectionTerminated => Locking.connectionTerminated

/-- Callbacks run on the core's threads, everything else on the application's.  A
termination is reported on a thread of its own, or on a worker. -/
def Role.calls : Role → Call → Bool
  | .coreWorker, .audio _ => true
  | .coreWorker, .internalConnectionTerminated => true
  | .coreWorker, .connectionTerminated => true
  | .coreWorker, _ => false
  | .terminationCallback, .connectionTerminated => true
  | .terminationCallback, _ => false
  | .application, .audio _ => false
  | .application, .internalConnectionTerminated => false
  | .application, .connectionTerminated => false
  | .application, _ => true

def rules : Rules Mutex Role Call where
  joined role := role == .coreWorker
  code role call := if role.calls call then some call.actions else none

end MoonlightScarlet.App.Locking
