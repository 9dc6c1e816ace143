import MoonlightScarlet.Support.Threads
/-!
# The connection singleton

Any number of threads share one C core: through a `Connection`, through its
`ConnectionControl` handles, and as threads of the core that run the termination
callback.  Each lock, each atomic operation and each call of the core is one step;
`LiStartConnection` and `LiStopConnection` take two, their beginning and their end.
What a thread does on its own between two of these belongs to the step before.
-/

namespace MoonlightScarlet.Sys

/-- Attempts to start a connection are numbered. -/
abbrev ConnId := Nat

/-- `NO_REPORTED_ERROR`, `INT_MIN` in the bridge. -/
def noReportedError : Int32 := Int32.minValue

def reportedError (value : Int32) : Option Int32 :=
  if value ≠ noReportedError then some value else none

structure ConnectionState where
  active : Bool := false
  stopRequested : Bool := false
  deriving DecidableEq

/-- The object that owns a connection; `borrow` is the thread in one of its `&mut self`
methods. -/
structure Connection (T : Type) where
  stopped : Bool := false
  borrow : Option T := none
  deriving DecidableEq

/-- `CONNECTION_ACTIVE`, which is true unless `free`, with the thread or the connection
that it is true for. -/
inductive Slot (T : Type)
  | free
  | starting (thread : T)
  | connected (connection : ConnId)
  deriving DecidableEq

/-- The frame queue of the core.  A wake stays until a frame wait consumes it. -/
structure FrameQueue where
  frames : Nat := 0
  woken : Bool := false
  deriving DecidableEq

inductive CoreCall
  | sendInput
  | getHostFeatureFlags
  deriving DecidableEq

/-- Who takes the wake gate to wake the frame queue: `request_stop` of a handle, or the
termination callback of a connection. -/
inductive Waker
  | control (connection : ConnId)
  | termination (connection : ConnId)
  deriving DecidableEq

/-- What happened, in the order of the steps. -/
inductive Event
  | reset (connection : ConnId)
  | startBegin (connection : ConnId)
  | startEnd (connection : ConnId) (ok : Bool)
  | register (connection : ConnId)
  | started (connection : ConnId)
  | stopRequested (connection : ConnId)
  | unregister (connection : ConnId)
  | stopBegin (connection : ConnId)
  | stopEnd (connection : ConnId)
  | coreCall (connection : ConnId) (call : CoreCall)
  | terminated (connection : ConnId) (code : Int32)
  | wake (waker : Waker)
  | returned (waker : Waker)
  | sawNoStop (connection : ConnId)
  | sawNoTermination (connection : ConnId)
  | waitNone (connection : ConnId)
  | waitFrame (connection : ConnId)
  | readError (connection : ConnId) (error : Option Int32)
  deriving DecidableEq

/-- The statics of the crate and of the bridge, the shared objects, and the log of the
events, the newest first. -/
structure Shared (T : Type) where
  connectionActive : Slot T := .free
  coreLock : Option T := none
  wakeLock : Option T := none
  videoWakeState : Option ConnId := none
  terminationError : Int32 := 0
  queue : FrameQueue := {}
  attempts : Nat := 0
  states : ConnId → ConnectionState := fun _ => {}
  connections : ConnId → Option (Connection T) := fun _ => none
  log : List Event := []

/-! ## Program counters -/

/-- Where a call of `start_with_audio` stands that has set `CONNECTION_ACTIVE`. -/
inductive StartPc
  | reset
  | call (connection : ConnId)
  | running (connection : ConnId)
  | release
  | lock (connection : ConnId)
  | register (connection : ConnId)
  | unlock (connection : ConnId)
  deriving DecidableEq

inductive StopPc
  | lock
  | lockWake
  | deactivate
  | unregister
  | unlockWake
  | call
  | running
  | release
  | unlock
  deriving DecidableEq

inductive CallPc
  | check
  | core
  | unlock
  deriving DecidableEq

inductive WakePc
  | lock
  | check
  | wake
  | unlock
  deriving DecidableEq

inductive WaitPc
  | termination
  | frame
  deriving DecidableEq

inductive Pc
  | idle
  | start (pc : StartPc)
  | stop (connection : ConnId) (pc : StopPc)
  | call (connection : ConnId) (call : CoreCall) (pc : CallPc)
  | wake (waker : Waker) (pc : WakePc)
  | wait (connection : ConnId) (pc : WaitPc)
  deriving DecidableEq

/-- What a thread does next: an idle thread begins an operation, `run` is the next step
of the operation, `startReturns` the return of `LiStartConnection`. -/
inductive Action
  | start
  | stop (connection : ConnId)
  | call (connection : ConnId) (call : CoreCall)
  | requestStop (connection : ConnId)
  | terminated (connection : ConnId) (code : Int32)
  | waitForVideoFrame (connection : ConnId)
  | terminationError (connection : ConnId)
  | frame
  | startReturns (ok : Bool)
  | run
  deriving DecidableEq

/-! ## Steps -/

variable {T : Type}

namespace Shared

variable (s : Shared T)

def record (event : Event) : Shared T := { s with log := event :: s.log }

def modifyState (connection : ConnId) (f : ConnectionState → ConnectionState) : Shared T :=
  { s with states := Function.update s.states connection (f (s.states connection)) }

def modifyConnection (connection : ConnId) (f : Connection T → Connection T) : Shared T :=
  { s with
    connections := Function.update s.connections connection ((s.connections connection).map f) }

/-- Begin (`some`) or end (`none`) a `&mut self` method. -/
def setBorrow (connection : ConnId) (borrow : Option T) : Shared T :=
  s.modifyConnection connection fun object => { object with borrow }

def requestStop (connection : ConnId) : Shared T :=
  (s.modifyState connection fun state => { state with stopRequested := true }).record
    (.stopRequested connection)

def lockCore (t : T) (pc : Pc) : Option (Shared T × Pc) :=
  if s.coreLock = none then some ({ s with coreLock := some t }, pc) else none

def lockWake (t : T) (pc : Pc) : Option (Shared T × Pc) :=
  if s.wakeLock = none then some ({ s with wakeLock := some t }, pc) else none

/-- `LiWakeWaitForVideoFrame`. -/
def wakeVideoFrame (waker : Waker) : Shared T :=
  { s with queue := { s.queue with woken := true } }.record (.wake waker)

/-- The test under the wake gate. -/
def gateOpen : Waker → Bool
  | .control connection => (s.states connection).active
  | .termination _ => s.videoWakeState.isSome

variable {s}

@[simp] theorem log_record {event : Event} : (s.record event).log = event :: s.log := rfl

@[simp] theorem log_modifyState {c : ConnId} {f : ConnectionState → ConnectionState} :
    (s.modifyState c f).log = s.log := rfl

@[simp] theorem log_modifyConnection {c : ConnId} {f : Connection T → Connection T} :
    (s.modifyConnection c f).log = s.log := rfl

@[simp] theorem log_setBorrow {c : ConnId} {borrow : Option T} :
    (s.setBorrow c borrow).log = s.log := rfl

@[simp] theorem log_requestStop {c : ConnId} :
    (s.requestStop c).log = .stopRequested c :: s.log := rfl

@[simp] theorem log_wakeVideoFrame {waker : Waker} :
    (s.wakeVideoFrame waker).log = .wake waker :: s.log := rfl

end Shared

/-- `start_with_audio` up to the compare-exchange; a refused call returns. -/
def start (t : T) (s : Shared T) : Shared T × Pc :=
  match s.connectionActive with
  | .free => ({ s with connectionActive := .starting t }, .start .reset)
  | _ => (s, .idle)

/-- `LiStartConnection` returns.  On success the state of the connection is created. -/
def startReturns (s : Shared T) (connection : ConnId) (ok : Bool) : Shared T × Pc :=
  let s := s.record (.startEnd connection ok)
  if ok then (s.modifyState connection fun _ => { active := true }, .start (.lock connection))
  else (s, .start .release)

def startStep (t : T) (s : Shared T) : StartPc → Option (Shared T × Pc)
  -- `mls_start_connection` clears what an earlier callback reported, then calls the core.
  | .reset =>
      some ({ s with terminationError := noReportedError, attempts := s.attempts + 1 }.record
        (.reset s.attempts), .start (.call s.attempts))
  | .call connection =>
      some ({ s with queue := {} }.record (.startBegin connection), .start (.running connection))
  | .running _ => none
  | .release => some ({ s with connectionActive := .free }, .idle)
  | .lock connection => s.lockWake t (.start (.register connection))
  | .register connection =>
      some ({ s with videoWakeState := some connection }.record (.register connection),
        .start (.unlock connection))
  | .unlock connection =>
      some ({ s with
        wakeLock := none
        connectionActive := .connected connection
        connections := Function.update s.connections connection (some {}) }.record
          (.started connection), .idle)

/-- `stop`, or the drop of the connection, up to the store of `stop_requested`. -/
def stop (t : T) (s : Shared T) (connection : ConnId) : Option (Shared T × Pc) :=
  match s.connections connection with
  | some { stopped := false, borrow := none } =>
      some ((s.setBorrow connection (some t)).requestStop connection, .stop connection .lock)
  | some { stopped := true, borrow := none } => some (s, .idle)
  | _ => none

def stopStep (t : T) (s : Shared T) (connection : ConnId) : StopPc → Option (Shared T × Pc)
  | .lock => s.lockCore t (.stop connection .lockWake)
  | .lockWake => s.lockWake t (.stop connection .deactivate)
  | .deactivate =>
      some (s.modifyState connection fun state => { state with active := false },
        .stop connection .unregister)
  | .unregister =>
      some ({ s with videoWakeState := none }.record (.unregister connection),
        .stop connection .unlockWake)
  | .unlockWake => some ({ s with wakeLock := none }, .stop connection .call)
  | .call => some (s.record (.stopBegin connection), .stop connection .running)
  | .running => some (s.record (.stopEnd connection), .stop connection .release)
  | .release =>
      some ({ s with connectionActive := .free }.modifyConnection connection
        fun object => { object with stopped := true }, .stop connection .unlock)
  | .unlock => some ({ s with coreLock := none }.setBorrow connection none, .idle)

/-- `send_input` and `supports_touch` under the core lock. -/
def callStep (s : Shared T) (connection : ConnId) (call : CoreCall) :
    CallPc → Option (Shared T × Pc)
  | .check =>
      some (s, .call connection call (if (s.states connection).active then .core else .unlock))
  | .core => some (s.record (.coreCall connection call), .call connection call .unlock)
  | .unlock => some ({ s with coreLock := none }, .idle)

/-- `request_stop` after its store, and `mls_rust_connection_terminated`. -/
def wakeStep (t : T) (s : Shared T) (waker : Waker) : WakePc → Option (Shared T × Pc)
  | .lock => s.lockWake t (.wake waker .check)
  | .check => some (s, .wake waker (if s.gateOpen waker then .wake else .unlock))
  | .wake => some (s.wakeVideoFrame waker, .wake waker .unlock)
  | .unlock => some ({ s with wakeLock := none }.record (.returned waker), .idle)

/-- `wait_for_video_frame` up to the load of `stop_requested`. -/
def waitForVideoFrame (t : T) (s : Shared T) (connection : ConnId) : Option (Shared T × Pc) :=
  match s.connections connection with
  | some { stopped, borrow := none } =>
      if stopped || (s.states connection).stopRequested then
        some (s.record (.waitNone connection), .idle)
      else
        some ((s.setBorrow connection (some t)).record (.sawNoStop connection),
          .wait connection .termination)
  | _ => none

/-- The wait in the core blocks (`none`) without a wake and without a frame. -/
def waitStep (s : Shared T) (connection : ConnId) : WaitPc → Option (Shared T × Pc)
  | .termination =>
      if (reportedError s.terminationError).isSome then
        some ((s.setBorrow connection none).record (.waitNone connection), .idle)
      else some (s.record (.sawNoTermination connection), .wait connection .frame)
  | .frame =>
      if s.queue.woken then
        some (({ s with queue := { s.queue with woken := false } }.setBorrow connection none).record
          (.waitNone connection), .idle)
      else if s.queue.frames > 0 then
        some (({ s with queue := { s.queue with frames := s.queue.frames - 1 } }.setBorrow
          connection none).record (.waitFrame connection), .idle)
      else none

/-- What an idle thread begins.  A handle exists once its connection was returned, and
the core runs termination callbacks from the beginning of `LiStartConnection` on. -/
def perform (t : T) (s : Shared T) : Action → Option (Shared T × Pc)
  | .start => some (start t s)
  | .stop connection => stop t s connection
  | .call connection call =>
      if (s.connections connection).isSome then s.lockCore t (.call connection call .check)
      else none
  | .requestStop connection =>
      if (s.connections connection).isSome then
        some (s.requestStop connection, .wake (.control connection) .lock)
      else none
  | .terminated connection code =>
      if .startBegin connection ∈ s.log then
        some ({ s with terminationError := code }.record (.terminated connection code),
          .wake (.termination connection) .lock)
      else none
  | .waitForVideoFrame connection => waitForVideoFrame t s connection
  | .terminationError connection =>
      match s.connections connection with
      | some { borrow := none, .. } =>
          some (s.record (.readError connection (reportedError s.terminationError)), .idle)
      | _ => none
  | .frame => some ({ s with queue := { s.queue with frames := s.queue.frames + 1 } }, .idle)
  | .startReturns _ => none
  | .run => none

def advance (t : T) (s : Shared T) : Pc → Action → Option (Shared T × Pc)
  | .idle, action => perform t s action
  | .start (.running connection), .startReturns ok => some (startReturns s connection ok)
  | .start pc, .run => startStep t s pc
  | .stop connection pc, .run => stopStep t s connection pc
  | .call connection call pc, .run => callStep s connection call pc
  | .wake waker pc, .run => wakeStep t s waker pc
  | .wait connection pc, .run => waitStep s connection pc
  | _, _ => none

abbrev System (T : Type) := Support.Threads.System T (Shared T) Pc

abbrev step [DecidableEq T] : System T → T × Action → Option (System T) :=
  Support.Threads.step advance

/-- No connection yet, every thread idle. -/
def System.init : System T := ⟨{}, fun _ => .idle⟩

end MoonlightScarlet.Sys
